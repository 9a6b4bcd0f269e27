import Mathlib.Tactic.SplitIfs
import CodeGauge.Report.Document
import CodeGauge.Proofs.JsonReading
import CodeGauge.Proofs.NumberForms

/-!
# A check report reads back

What is written for a document is a JSON text (`isText_written`): every string stands in a spelling
of it whatever its characters are, every number is a JSON number, and what stands between the tokens
is white space. So a reader finds in the text of a check report the document that was written. The
violations in that document are those of the report (`violations?_checkJson`), and its metadata are
those it was written with (`metadata?_json`).
-/

namespace CodeGauge

namespace Json

/-! ## Strings are spelled -/

theorem hexValue?_hexDigit : ∀ n < 16, hexValue? (hexDigit n) = some n := by decide

theorem isUnit_control {n : Nat} (h : n < 32) :
    IsUnit ['0', '0', hexDigit (n / 16), hexDigit (n % 16)] n := by
  have hunit : IsUnit ['0', '0', hexDigit (n / 16), hexDigit (n % 16)]
      (16 * (16 * (16 * 0 + 0) + n / 16) + n % 16) :=
    .mk rfl rfl (hexValue?_hexDigit _ (by omega)) (hexValue?_hexDigit _ (by omega))
  rwa [show 16 * (16 * (16 * 0 + 0) + n / 16) + n % 16 = n by omega] at hunit

theorem spellsChar_escapeChar (c : Char) : SpellsChar c (escapeChar c) := by
  have hletter {n : Nat} {e : Char} (hn : c.toNat = n) (he : escape? e = some (Char.ofNat n)) :
      SpellsChar c ['\\', e] := by
    rw [← hn, Char.ofNat_toNat] at he
    exact .letter he
  rw [escapeChar]
  split_ifs with hquote hbackslash h8 h9 h10 h12 h13 hcontrol
  · exact .letter (by rw [hquote]; rfl)
  · exact .letter (by rw [hbackslash]; rfl)
  · exact hletter h8 rfl
  · exact hletter h9 rfl
  · exact hletter h10 rfl
  · exact hletter h12 rfl
  · exact hletter h13 rfl
  · exact .unit (isUnit_control hcontrol)
  · exact .plain (by omega) hquote hbackslash

theorem spellsText_escape (cs : List Char) : SpellsText cs (cs.flatMap escapeChar) := by
  induction cs with
  | nil => exact .nil
  | cons c cs ih => exact .cons (spellsChar_escapeChar c) ih

theorem spells_quote (s : String) : Spells (.string s) (quote s) := .string (spellsText_escape _)

/-! ## Documents are spelled -/

section Rendered

variable {rest : List Char} {ts : List Token}

theorem endsNumber_cons {c : Char} (h : inNumber c = false) (rest : List Char) :
    EndsNumber (c :: rest) := by
  intro d hd
  obtain rfl : c = d := by simpa using hd
  exact h

theorem endsNumber_newline (depth : Nat) (rest : List Char) :
    EndsNumber (newline depth ++ rest) :=
  endsNumber_cons (by decide) _

theorem lexed_newline (depth : Nat) (h : Lexed rest ts) : Lexed (newline depth ++ rest) ts := by
  refine .space rfl ?_
  induction 2 * depth with
  | zero => exact h
  | succ n ih =>
    rw [List.replicate_succ]
    exact .space rfl ih

theorem lexed_key (key : String) (h : Lexed rest ts) :
    Lexed (quote key ++ ':' :: ' ' :: rest) (.string key :: .colon :: ts) :=
  .token (spells_quote key) trivial (.token .colon trivial (.space rfl h))

mutual

/-- What a document says when it is read as a text. -/
def document : Json → Document
  | null => .null
  | bool value => .bool value
  | integer value => .number (toString value).toList
  | number value =>
    match Decimal.exchange? value with
    | some text => .number text.toList
    | none => .null
  | string value => .string value
  | array items => .array (itemDocuments items)
  | object members => .object (memberDocuments members)

def itemDocuments : List Json → List Document
  | [] => []
  | item :: items => document item :: itemDocuments items

def memberDocuments : List (String × Json) → List (String × Document)
  | [] => []
  | (key, value) :: members => (key, document value) :: memberDocuments members

end

theorem endsNumber_renderItems (depth : Nat) (items : List Json) (h : EndsNumber rest) :
    EndsNumber (renderItems depth items ++ rest) := by
  rcases items with _ | ⟨item, items⟩ <;> rw [renderItems]
  · exact h
  · exact endsNumber_cons (by decide) _

theorem endsNumber_renderMembers (depth : Nat) (members : List (String × Json))
    (h : EndsNumber rest) : EndsNumber (renderMembers depth members ++ rest) := by
  rcases members with _ | ⟨member, members⟩ <;> rw [renderMembers]
  · exact h
  · exact endsNumber_cons (by decide) _

mutual

/-- A document is rendered to characters that spell its tokens. -/
theorem lexed_render : ∀ (j : Json) (depth : Nat) {rest : List Char} {ts : List Token},
    Lexed rest ts → EndsNumber rest → Lexed (render depth j ++ rest) (j.document.tokens ++ ts)
  | null, depth, rest, ts, h, _ => by
    rw [render, document]
    exact .token .null trivial h
  | bool true, depth, rest, ts, h, _ => by
    rw [render, document]
    exact .token .true trivial h
  | bool false, depth, rest, ts, h, _ => by
    rw [render, document]
    exact .token .false trivial h
  | integer value, depth, rest, ts, h, hends => by
    rw [render, document]
    exact .token (.number (isNumber_toString value)) hends h
  | number value, depth, rest, ts, h, hends => by
    rw [render, document]
    cases htext : Decimal.exchange? value with
    | none => exact .token .null trivial h
    | some text => exact .token (.number (isNumber_exchange? htext)) hends h
  | string value, depth, rest, ts, h, _ => by
    rw [render, document]
    exact .token (spells_quote value) trivial h
  | array [], depth, rest, ts, h, _ => by
    rw [render, document, itemDocuments, Document.tokens]
    simpa using Lexed.token .beginArray trivial (.token .endArray trivial h)
  | array (item :: items), depth, rest, ts, h, _ => by
    -- from the last character to the first, as what follows an item tells where a number ends
    have hend := lexed_newline depth (.token .endArray trivial h)
    have hitems := lexed_renderItems items (depth + 1) hend (endsNumber_newline _ _)
    have hitem := lexed_render item (depth + 1) hitems
      (endsNumber_renderItems _ _ (endsNumber_newline _ _))
    rw [render, document, itemDocuments, Document.tokens]
    simpa using Lexed.token .beginArray trivial (lexed_newline (depth + 1) hitem)
  | object [], depth, rest, ts, h, _ => by
    rw [render, document, memberDocuments, Document.tokens]
    simpa using Lexed.token .beginObject trivial (.token .endObject trivial h)
  | object ((key, value) :: members), depth, rest, ts, h, _ => by
    have hend := lexed_newline depth (.token .endObject trivial h)
    have hmembers := lexed_renderMembers members (depth + 1) hend (endsNumber_newline _ _)
    have hvalue := lexed_render value (depth + 1) hmembers
      (endsNumber_renderMembers _ _ (endsNumber_newline _ _))
    rw [render, document, memberDocuments, Document.tokens]
    simpa using Lexed.token .beginObject trivial (lexed_newline (depth + 1) (lexed_key key hvalue))

theorem lexed_renderItems : ∀ (items : List Json) (depth : Nat) {rest : List Char}
    {ts : List Token}, Lexed rest ts → EndsNumber rest →
      Lexed (renderItems depth items ++ rest) (Document.itemTokens (itemDocuments items) ++ ts)
  | [], _, _, _, h, _ => by rwa [renderItems, itemDocuments, Document.itemTokens]
  | item :: items, depth, rest, ts, h, hends => by
    have hitem := lexed_render item depth (lexed_renderItems items depth h hends)
      (endsNumber_renderItems _ _ hends)
    rw [renderItems, itemDocuments, Document.itemTokens]
    simpa using Lexed.token .comma trivial (lexed_newline depth hitem)

theorem lexed_renderMembers : ∀ (members : List (String × Json)) (depth : Nat)
    {rest : List Char} {ts : List Token}, Lexed rest ts → EndsNumber rest →
      Lexed (renderMembers depth members ++ rest)
        (Document.memberTokens (memberDocuments members) ++ ts)
  | [], _, _, _, h, _ => by rwa [renderMembers, memberDocuments, Document.memberTokens]
  | (key, value) :: members, depth, rest, ts, h, hends => by
    have hvalue := lexed_render value depth (lexed_renderMembers members depth h hends)
      (endsNumber_renderMembers _ _ hends)
    rw [renderMembers, memberDocuments, Document.memberTokens]
    simpa using Lexed.token .comma trivial (lexed_newline depth (lexed_key key hvalue))

end

end Rendered

/-- What is written for a document is a JSON text, and says the document. -/
theorem isText_written (j : Json) : IsText j.written j.document := by
  have h := lexed_render j 0 (.space (c := '\n') rfl .nil) (endsNumber_cons (by decide) _)
  rw [List.append_nil] at h
  rwa [IsText, written, text, String.toList_append, String.toList_ofList]

namespace Document

/-! ## Reports are decoded -/

/-- The value of a member of an object. -/
def member? (d : Document) (key : String) : Option Document :=
  match d with
  | object members => members.lookup key
  | _ => none

def text? : Document → Option String
  | string value => some value
  | _ => none

/-- The value of a number that is written in digits only. -/
def natural? : Document → Option Nat
  | number literal =>
    if literal.all Char.isDigit then some (Nat.ofDigitChars 10 literal 0) else none
  | _ => none

def items? : Document → Option (List Document)
  | array items => some items
  | _ => none

/-- The violation of an object. It is on no declaration if it has no such member, and its priority
is that of the level it has. -/
def violation? (d : Document) : Option Violation := do
  let rule ← (← d.member? "rule").text?
  let file ← (← d.member? "file").text?
  let firstLine ← (← d.member? "begin_line").natural?
  let lastLine ← (← d.member? "end_line").natural?
  let declaration ← match d.member? "declaration" with
    | some name => name.text?.map some
    | none => some none
  let score ← (← d.member? "score").text?
  let message ← (← d.member? "message").text?
  let priority ← Priority.ofLevel? (← (← d.member? "priority").natural?)
  return { rule, file, firstLine, lastLine, declaration, score, message, priority }

def violations? (d : Document) : Option (List Violation) := do
  (← (← d.member? "violations").items?).mapM violation?

/-- The metadata of an object but for the rate, which is given and not read. -/
def metadata? (d : Document) (rate : Float) : Option CheckMetadata := do
  let language ← (← d.member? "language").text?
  let root ← (← d.member? "root").text?
  let ruleSets ← (← (← d.member? "rulesets").items?).mapM text?
  let ruleCount ← (← d.member? "rule_count").natural?
  let filesParsed ← (← d.member? "files_parsed").natural?
  let filesSkipped ← (← d.member? "files_skipped").natural?
  let violationCount ← (← d.member? "violation_count").natural?
  let timestamp ← (← d.member? "timestamp").text?
  let elapsedMs ← (← d.member? "elapsed_ms").natural?
  return {
    language, root, ruleSets, ruleCount, filesParsed, filesSkipped, violationCount, timestamp,
    elapsedMs, filesPerSecond := rate }

@[simp] theorem text?_string (s : String) : (string s).text? = some s := rfl

@[simp] theorem natural?_digits (n : Nat) : (number (Nat.toDigits 10 n)).natural? = some n := by
  rw [natural?, if_pos (List.all_eq_true.2 (isDigits_toDigits n).2), Nat.ofDigitChars_ten_toDigits]

end Document

open Document in
/-- The object that is written for a violation is read as the violation. -/
theorem violation?_json (v : Violation) : v.json.document.violation? = some v := by
  obtain ⟨rule, file, firstLine, lastLine, declaration, score, message, priority⟩ := v
  rcases declaration with _ | declaration <;>
    simp [Violation.json, document, memberDocuments, violation?, member?, List.lookup_cons,
      Priority.ofLevel?_level]

/-- Items that are each read as what was written are read together. -/
theorem mapM_itemDocuments {α : Type} {write : α → Json} {read : Document → Option α}
    (h : ∀ a, read (write a).document = some a) (as : List α) :
    (itemDocuments (as.map write)).mapM read = some as := by
  induction as with
  | nil => rfl
  | cons a as ih =>
    rw [List.map_cons, itemDocuments, List.mapM_cons, h, ih]
    rfl

theorem violations?_checkJson (r : Report) (m : CheckMetadata) :
    (r.checkJson m).document.violations? = some r.violations := by
  have hmember : (r.checkJson m).document.member? "violations" =
      some (.array (itemDocuments (r.violations.map (·.json)))) := by
    simp [Report.checkJson, document, memberDocuments, Document.member?, List.lookup_cons]
  rw [Document.violations?, hmember]
  exact mapM_itemDocuments violation?_json r.violations

/-- The object that is written for metadata is read as the metadata. -/
theorem metadata?_json (m : CheckMetadata) :
    m.json.document.metadata? m.filesPerSecond = some m := by
  obtain ⟨language, root, ruleSets, ruleCount, filesParsed, filesSkipped, violationCount,
    timestamp, elapsedMs, rate⟩ := m
  have hruleSets : (itemDocuments (ruleSets.map .string)).mapM Document.text? = some ruleSets :=
    mapM_itemDocuments (fun _ => rfl) ruleSets
  simp [CheckMetadata.json, document, memberDocuments, Document.metadata?, Document.member?,
    Document.items?, List.lookup_cons, hruleSets]

end Json

/-- The text of any check report is a JSON text that says one document. A reader finds that
document, and the violations in it are those of the report, in order, whatever characters their
texts have. The metadata in it are those that were given, whether they count the violations of the
report or not. -/
theorem check_report_reads_back (r : Report) (m : CheckMetadata) :
    ∃ d, (∀ d', Json.IsText (r.checkJson m).written d' ↔ d' = d) ∧
      Json.read? (r.checkJson m).written = some d ∧ d.violations? = some r.violations ∧
      (d.member? "metadata").bind (·.metadata? m.filesPerSecond) = some m := by
  have htext := Json.isText_written (r.checkJson m)
  have hmetadata : (r.checkJson m).document.member? "metadata" = some m.json.document := rfl
  refine ⟨(r.checkJson m).document, fun d' => ⟨fun h => h.unique htext, fun h => h ▸ htext⟩,
    Json.read?_of_isText htext, Json.violations?_checkJson r m, ?_⟩
  rw [hmetadata]
  exact Json.metadata?_json m

end CodeGauge
