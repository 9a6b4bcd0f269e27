import CodeGauge.Proofs.JsonGrammar

/-!
# Reading JSON texts

A reader that takes one character after the other. `Lexer.step?` adds a character to the tokens read
so far, `Parser.step?` adds a token to the document read so far, with the arrays and objects around
it still open, and `read?` runs the one over the characters and the other over the tokens.

The reader reads every JSON text and finds the document that the text says (`read?_of_isText`): from
between two tokens the characters of a token lead to between two tokens again, with the token added
(`finish?_token`), and from where a value is due the tokens of a document lead to after that value,
whatever is open around it (`finish?_tokens`). So no text says two documents (`IsText.unique`).
-/

namespace CodeGauge

theorem ne_of_isDigit {d c : Char} (h : d.isDigit) (hc : c.isDigit = false) : d ≠ c := by
  rintro rfl
  rw [h] at hc
  cases hc

namespace Json

/-! ## Numbers -/

/-- Where a reader stands in a number. -/
inductive NumberPart where
  | start
  | minus
  | zero
  | whole
  | point
  | fraction
  | letter
  | sign
  | exponent

namespace NumberPart

def step? : NumberPart → Char → Option NumberPart
  | start, c =>
    if c = '-' then some minus else if c = '0' then some zero
    else if c.isDigit then some whole else none
  | minus, c => if c = '0' then some zero else if c.isDigit then some whole else none
  | zero, c => if c = '.' then some point else if c = 'e' ∨ c = 'E' then some letter else none
  | whole, c =>
    if c.isDigit then some whole else if c = '.' then some point
    else if c = 'e' ∨ c = 'E' then some letter else none
  | point, c => if c.isDigit then some fraction else none
  | fraction, c =>
    if c.isDigit then some fraction else if c = 'e' ∨ c = 'E' then some letter else none
  | letter, c =>
    if c = '+' ∨ c = '-' then some sign else if c.isDigit then some exponent else none
  | sign, c | exponent, c => if c.isDigit then some exponent else none

/-- Whether a number may end here. -/
def isLast : NumberPart → Bool
  | zero | whole | fraction | exponent => true
  | _ => false

end NumberPart

def scansNumber (cs : List Char) : Bool := (cs.foldlM NumberPart.step? .start).any (·.isLast)

/-! ## Tokens -/

/-- Where a reader stands: between tokens, or in one, with what it has read of it, last read first.
-/
inductive Mode where
  | between
  /-- In a word, with what is due of it. -/
  | word (due : List Char) (t : Token)
  | number (found : List Char)
  | string (found : List Char)
  /-- Behind a backslash. -/
  | escape (found : List Char)
  /-- Among the digits of a code unit, perhaps a second one after `high`. -/
  | unit (found : List Char) (high : Option Nat) (due value : Nat)
  /-- Before the digits of a second code unit, the backslash read or not. -/
  | second (found : List Char) (high : Nat) (backslash : Bool)

/-- What has been read of a text: its tokens, last first, and where the reader stands. -/
structure Lexer where
  tokens : List Token
  mode : Mode

namespace Lexer

/-- The start of a token, or white space. -/
def begin? (ts : List Token) (c : Char) : Option Lexer :=
  if isSpace c then some ⟨ts, .between⟩
  else if inNumber c then some ⟨ts, .number [c]⟩
  else match c with
    | '[' => some ⟨.beginArray :: ts, .between⟩
    | ']' => some ⟨.endArray :: ts, .between⟩
    | '\x7b' => some ⟨.beginObject :: ts, .between⟩
    | '\x7d' => some ⟨.endObject :: ts, .between⟩
    | ',' => some ⟨.comma :: ts, .between⟩
    | ':' => some ⟨.colon :: ts, .between⟩
    | 'n' => some ⟨ts, .word ['u', 'l', 'l'] .null⟩
    | 't' => some ⟨ts, .word ['r', 'u', 'e'] (.bool true)⟩
    | 'f' => some ⟨ts, .word ['a', 'l', 's', 'e'] (.bool false)⟩
    | '"' => some ⟨ts, .string []⟩
    | _ => none

/-- The tokens with a number that is over. -/
def number? (ts : List Token) (found : List Char) : Option (List Token) :=
  if scansNumber found.reverse then some (.number found.reverse :: ts) else none

/-- A code unit whose digits are read: a character, or the first or the second half of one. -/
def unit? (ts : List Token) (found : List Char) (high : Option Nat) (value : Nat) : Option Lexer :=
  match high with
  | none =>
    if 0xD800 ≤ value ∧ value < 0xDC00 then some ⟨ts, .second found (value - 0xD800) false⟩
    else if value.isValidChar then some ⟨ts, .string (Char.ofNat value :: found)⟩ else none
  | some high =>
    if 0xDC00 ≤ value ∧ value < 0xE000 then
      some ⟨ts, .string (Char.ofNat (0x10000 + 0x400 * high + (value - 0xDC00)) :: found)⟩
    else none

def step? (l : Lexer) (c : Char) : Option Lexer :=
  match l.mode with
  | .between => begin? l.tokens c
  | .word [] _ => none
  | .word (d :: due) t =>
    if c = d then some (if due.isEmpty then ⟨t :: l.tokens, .between⟩ else ⟨l.tokens, .word due t⟩)
    else none
  | .number found =>
    if inNumber c then some ⟨l.tokens, .number (c :: found)⟩
    else (number? l.tokens found).bind (begin? · c)
  | .string found =>
    if c = '"' then some ⟨.string (String.ofList found.reverse) :: l.tokens, .between⟩
    else if c = '\\' then some ⟨l.tokens, .escape found⟩
    else if 32 ≤ c.toNat then some ⟨l.tokens, .string (c :: found)⟩ else none
  | .escape found =>
    if c = 'u' then some ⟨l.tokens, .unit found none 3 0⟩
    else (escape? c).map fun d => ⟨l.tokens, .string (d :: found)⟩
  | .unit found high due value =>
    (hexValue? c).bind fun n => match due with
      | 0 => unit? l.tokens found high (16 * value + n)
      | due + 1 => some ⟨l.tokens, .unit found high due (16 * value + n)⟩
  | .second found high false =>
    if c = '\\' then some ⟨l.tokens, .second found high true⟩ else none
  | .second found high true =>
    if c = 'u' then some ⟨l.tokens, .unit found (some high) 3 0⟩ else none

/-- The tokens of a text that is over. -/
def end? : Lexer → Option (List Token)
  | ⟨ts, .between⟩ => some ts.reverse
  | ⟨ts, .number found⟩ => (number? ts found).map (·.reverse)
  | _ => none

/-- The tokens of a text, from the characters that are still to be read. -/
def finish? (l : Lexer) (cs : List Char) : Option (List Token) := (cs.foldlM step? l).bind end?

end Lexer

/-! ## Documents -/

/-- An array or an object that is open: what it has, last first, and the key that waits for a value.
-/
inductive Around where
  | items (done : List Document)
  | members (done : List (String × Document)) (key : String)

/-- What is due. -/
inductive Due where
  | value
  /-- A value, or the end of an array that has none. -/
  | firstItem
  /-- A key, or the end of an object that has no members. -/
  | key (done : List (String × Document))
  | colon (done : List (String × Document)) (key : String)
  /-- What goes on after a value. -/
  | after (value : Document)

/-- What has been read of some tokens: what is open, innermost first, and what is due. -/
structure Parser where
  around : List Around
  due : Due

namespace Parser

def value? (around : List Around) : Token → Option Parser
  | .null => some ⟨around, .after .null⟩
  | .bool value => some ⟨around, .after (.bool value)⟩
  | .number literal => some ⟨around, .after (.number literal)⟩
  | .string value => some ⟨around, .after (.string value)⟩
  | .beginArray => some ⟨.items [] :: around, .firstItem⟩
  | .beginObject => some ⟨around, .key []⟩
  | _ => none

def step? : Parser → Token → Option Parser
  | ⟨around, .value⟩, t => value? around t
  | ⟨.items [] :: around, .firstItem⟩, .endArray => some ⟨around, .after (.array [])⟩
  | ⟨around, .firstItem⟩, t => value? around t
  | ⟨around, .key done⟩, .string key => some ⟨around, .colon done key⟩
  | ⟨around, .key []⟩, .endObject => some ⟨around, .after (.object [])⟩
  | ⟨around, .colon done key⟩, .colon => some ⟨.members done key :: around, .value⟩
  | ⟨.items done :: around, .after d⟩, .comma => some ⟨.items (d :: done) :: around, .value⟩
  | ⟨.items done :: around, .after d⟩, .endArray =>
    some ⟨around, .after (.array (d :: done).reverse)⟩
  | ⟨.members done key :: around, .after d⟩, .comma => some ⟨around, .key ((key, d) :: done)⟩
  | ⟨.members done key :: around, .after d⟩, .endObject =>
    some ⟨around, .after (.object ((key, d) :: done).reverse)⟩
  | _, _ => none

/-- The document of tokens that are over. -/
def end? : Parser → Option Document
  | ⟨[], .after d⟩ => some d
  | _ => none

/-- The document of some tokens, from those that are still to be read. -/
def finish? (p : Parser) (ts : List Token) : Option Document := (ts.foldlM step? p).bind end?

end Parser

/-- The document that a text says, if it is a JSON text. -/
def read? (text : String) : Option Document :=
  (Lexer.finish? ⟨[], .between⟩ text.toList).bind (Parser.finish? ⟨[], .value⟩)

/-! ## Numbers are found -/

section Number

namespace NumberPart

theorem foldlM_step?_cons {part next : NumberPart} {c : Char} (h : part.step? c = some next)
    (cs : List Char) : (c :: cs).foldlM step? part = cs.foldlM step? next := by
  rw [List.foldlM_cons, h]
  rfl

theorem foldlM_step?_digits {part : NumberPart} (h : ∀ c, c.isDigit → part.step? c = some part)
    {ds : List Char} (hds : ∀ d ∈ ds, d.isDigit) : ds.foldlM step? part = some part := by
  induction ds with
  | nil => rfl
  | cons d ds ih =>
    rw [foldlM_step?_cons (h d (hds d List.mem_cons_self))]
    exact ih fun c hc => hds c (List.mem_cons_of_mem _ hc)

/-- Digits lead into a part in which further digits stay. -/
theorem foldlM_step?_of_isDigits {part next : NumberPart}
    (hfirst : ∀ c, c.isDigit → part.step? c = some next)
    (hnext : ∀ c, c.isDigit → next.step? c = some next) {ds : List Char} (h : IsDigits ds) :
    ds.foldlM step? part = some next := by
  obtain ⟨hne, hds⟩ := h
  obtain ⟨d, ds, rfl⟩ := List.exists_cons_of_ne_nil hne
  rw [foldlM_step?_cons (hfirst d (hds d List.mem_cons_self))]
  exact foldlM_step?_digits hnext fun c hc => hds c (List.mem_cons_of_mem _ hc)

theorem whole_step? {c : Char} (h : c.isDigit) : whole.step? c = some whole := by
  rw [step?, if_pos h]

theorem fraction_step? {c : Char} (h : c.isDigit) : fraction.step? c = some fraction := by
  rw [step?, if_pos h]

theorem exponent_step? {c : Char} (h : c.isDigit) : exponent.step? c = some exponent := by
  rw [step?, if_pos h]

theorem foldlM_step?_whole {part : NumberPart} (hpart : part = start ∨ part = minus)
    {cs : List Char} (h : IsWhole cs) :
    ∃ next, cs.foldlM step? part = some next ∧ (next = zero ∨ next = whole) := by
  rcases h with rfl | ⟨⟨hne, hds⟩, hhead⟩
  · rcases hpart with rfl | rfl <;> exact ⟨zero, rfl, .inl rfl⟩
  · obtain ⟨d, ds, rfl⟩ := List.exists_cons_of_ne_nil hne
    have hd : d.isDigit := hds d List.mem_cons_self
    have hzero : d ≠ '0' := by simpa using hhead
    have hminus : d ≠ '-' := ne_of_isDigit hd (by decide)
    have hfirst : part.step? d = some whole := by
      rcases hpart with rfl | rfl <;> simp [step?, hd, hzero, hminus]
    refine ⟨whole, ?_, .inr rfl⟩
    rw [foldlM_step?_cons hfirst]
    exact foldlM_step?_digits (fun _ => whole_step?) fun c hc => hds c (List.mem_cons_of_mem _ hc)

theorem foldlM_step?_fraction {part : NumberPart} (hpart : part = zero ∨ part = whole)
    {cs : List Char} (h : IsFraction cs) :
    ∃ next, cs.foldlM step? part = some next ∧ (next = zero ∨ next = whole ∨ next = fraction) := by
  rcases h with rfl | ⟨ds, rfl, hds⟩
  · exact ⟨part, rfl, by rcases hpart with rfl | rfl <;> simp⟩
  · have hpoint : part.step? '.' = some point := by rcases hpart with rfl | rfl <;> rfl
    refine ⟨fraction, ?_, .inr (.inr rfl)⟩
    rw [foldlM_step?_cons hpoint]
    exact foldlM_step?_of_isDigits (fun c hc => by rw [step?, if_pos hc])
      (fun _ => fraction_step?) hds

theorem foldlM_step?_exponent {part : NumberPart}
    (hpart : part = zero ∨ part = whole ∨ part = fraction) {cs : List Char} (h : IsExponent cs) :
    ∃ next, cs.foldlM step? part = some next ∧ next.isLast := by
  rcases h with rfl | ⟨e, written, ds, rfl, he, hsign, hds⟩
  · exact ⟨part, rfl, by rcases hpart with rfl | rfl | rfl <;> rfl⟩
  · have hletter : part.step? e = some letter := by
      rcases he with rfl | rfl <;> rcases hpart with rfl | rfl | rfl <;> rfl
    have hdigit (c : Char) (hc : c.isDigit) : letter.step? c = some exponent := by
      have hplus : c ≠ '+' := ne_of_isDigit hc (by decide)
      have hminus : c ≠ '-' := ne_of_isDigit hc (by decide)
      simp [step?, hc, hplus, hminus]
    have hsigned (c : Char) (hc : c.isDigit) : sign.step? c = some exponent := by
      rw [step?, if_pos hc]
    refine ⟨exponent, ?_, rfl⟩
    rw [List.cons_append, foldlM_step?_cons hletter]
    rcases hsign with rfl | rfl | rfl
    · exact foldlM_step?_of_isDigits hdigit (fun _ => exponent_step?) hds
    all_goals
      rw [List.singleton_append, foldlM_step?_cons rfl]
      exact foldlM_step?_of_isDigits hsigned (fun _ => exponent_step?) hds

end NumberPart

theorem scansNumber_of_isNumber {cs : List Char} (h : IsNumber cs) : scansNumber cs := by
  obtain ⟨sign, w, f, e, rfl, hsign, hw, hf, he⟩ := h
  obtain ⟨first, hfirst, hstart⟩ : ∃ first, sign.foldlM NumberPart.step? .start = some first ∧
      (first = .start ∨ first = .minus) := by
    rcases hsign with rfl | rfl
    · exact ⟨.start, rfl, .inl rfl⟩
    · exact ⟨.minus, rfl, .inr rfl⟩
  obtain ⟨part, hpart, hwhole⟩ := NumberPart.foldlM_step?_whole hstart hw
  obtain ⟨part', hpart', hfraction⟩ := NumberPart.foldlM_step?_fraction hwhole hf
  obtain ⟨last, hlast, hend⟩ := NumberPart.foldlM_step?_exponent hfraction he
  rw [scansNumber, List.foldlM_append, List.foldlM_append, List.foldlM_append, hfirst]
  simp [hpart, hpart', hlast, hend]

theorem IsDigits.inNumber {ds : List Char} (h : IsDigits ds) : ∀ c ∈ ds, inNumber c := by
  intro c hc
  rw [Json.inNumber, h.2 c hc, Bool.true_or]

theorem IsWhole.inNumber {cs : List Char} (h : IsWhole cs) : ∀ c ∈ cs, inNumber c := by
  rcases h with rfl | ⟨hds, -⟩
  · exact List.forall_mem_singleton.2 rfl
  · exact hds.inNumber

theorem IsWhole.ne_nil {cs : List Char} (h : IsWhole cs) : cs ≠ [] := by
  rcases h with rfl | ⟨hds, -⟩
  · simp
  · exact hds.1

theorem IsFraction.inNumber {cs : List Char} (h : IsFraction cs) : ∀ c ∈ cs, inNumber c := by
  rcases h with rfl | ⟨ds, rfl, hds⟩
  · simp
  · exact List.forall_mem_cons.2 ⟨rfl, hds.inNumber⟩

theorem IsExponent.inNumber {cs : List Char} (h : IsExponent cs) : ∀ c ∈ cs, inNumber c := by
  rcases h with rfl | ⟨e, sign, ds, rfl, he, hsign, hds⟩
  · simp
  · have hletter : Json.inNumber e := by rcases he with rfl | rfl <;> rfl
    have hsigned : ∀ c ∈ sign, Json.inNumber c := by
      rcases hsign with rfl | rfl | rfl <;> simp [Json.inNumber]
    exact List.forall_mem_cons.2 ⟨hletter, List.forall_mem_append.2 ⟨hsigned, hds.inNumber⟩⟩

theorem IsNumber.inNumber {cs : List Char} (h : IsNumber cs) : ∀ c ∈ cs, inNumber c := by
  obtain ⟨sign, whole, fraction, exponent, rfl, hsign, hwhole, hfraction, hexponent⟩ := h
  have hsigned : ∀ c ∈ sign, Json.inNumber c := by
    rcases hsign with rfl | rfl <;> simp [Json.inNumber]
  simp only [List.forall_mem_append]
  exact ⟨⟨⟨hsigned, hwhole.inNumber⟩, hfraction.inNumber⟩, hexponent.inNumber⟩

theorem IsNumber.ne_nil {cs : List Char} (h : IsNumber cs) : cs ≠ [] := by
  obtain ⟨sign, whole, fraction, exponent, rfl, -, hwhole, -⟩ := h
  simp [hwhole.ne_nil]

end Number

/-! ## The tokens of a text are found -/

namespace Lexer

variable {ts : List Token} {found w cs : List Char} {l l' : Lexer}

theorem foldlM_step?_append (h : w.foldlM step? l = some l') (cs : List Char) :
    (w ++ cs).foldlM step? l = cs.foldlM step? l' := by
  rw [List.foldlM_append, h]
  rfl

theorem finish?_append (h : w.foldlM step? l = some l') :
    l.finish? (w ++ cs) = l'.finish? cs := by
  rw [finish?, foldlM_step?_append h]
  rfl

theorem finish?_congr {c : Char} (h : l.step? c = l'.step? c) :
    l.finish? (c :: cs) = l'.finish? (c :: cs) := by
  rw [finish?, finish?, List.foldlM_cons, List.foldlM_cons, h]

/-! ### Strings -/

theorem foldlM_step?_unit {high : Option Nat} {n : Nat} (h : IsUnit w n) :
    w.foldlM step? ⟨ts, .unit found high 3 0⟩ = unit? ts found high n := by
  obtain ⟨h₁, h₂, h₃, h₄⟩ := h
  simp [step?, h₁, h₂, h₃, h₄]

/-- Behind a backslash, the letter of a code unit leads to its digits. -/
theorem foldlM_step?_escape {n : Nat} (h : IsUnit w n) :
    ('\\' :: 'u' :: w).foldlM step? ⟨ts, .string found⟩ = unit? ts found none n := by
  rw [← foldlM_step?_unit h]
  rfl

theorem foldlM_step?_second {high n : Nat} (h : IsUnit w n) :
    ('\\' :: 'u' :: w).foldlM step? ⟨ts, .second found high false⟩ =
      unit? ts found (some high) n := by
  rw [← foldlM_step?_unit h]
  rfl

/-- The spelling of a character leads from within a string to within it, with the character read. -/
theorem foldlM_step?_char {c : Char} (h : SpellsChar c w) :
    w.foldlM step? ⟨ts, .string found⟩ = some ⟨ts, .string (c :: found)⟩ := by
  cases h with
  | plain hcontrol hquote hbackslash => simp [step?, hquote, hbackslash, hcontrol]
  | @letter e h =>
    have hu : e ≠ 'u' := by
      rintro rfl
      exact absurd h (by simp [escape?, List.lookup_cons])
    simp [step?, hu, h]
  | unit h =>
    -- no character is half of a pair of code units
    have hvalid : c.toNat.isValidChar := c.valid
    have hhalf : ¬(0xD800 ≤ c.toNat ∧ c.toNat < 0xDC00) := by
      rcases hvalid with h | ⟨h, -⟩ <;> omega
    rw [foldlM_step?_escape h, unit?, if_neg hhalf, if_pos hvalid, Char.ofNat_toNat]
  | @units ds ds' high low h h' hhigh hlow hc =>
    have hfirst : ('\\' :: 'u' :: ds).foldlM step? ⟨ts, .string found⟩ =
        some ⟨ts, .second found high false⟩ := by
      rw [foldlM_step?_escape h, unit?, if_pos (by omega), Nat.add_sub_cancel_left]
    rw [foldlM_step?_append hfirst, foldlM_step?_second h', unit?, if_pos (by omega),
      Nat.add_sub_cancel_left, ← hc, Char.ofNat_toNat]

theorem foldlM_step?_text {text : List Char} (h : SpellsText text w) :
    w.foldlM step? ⟨ts, .string found⟩ = some ⟨ts, .string (text.reverse ++ found)⟩ := by
  induction h generalizing found with
  | nil => rfl
  | cons h _ ih =>
    rw [foldlM_step?_append (foldlM_step?_char h), ih]
    simp

/-! ### Numbers -/

theorem foldlM_step?_number (h : ∀ c ∈ w, inNumber c) :
    w.foldlM step? ⟨ts, .number found⟩ = some ⟨ts, .number (w.reverse ++ found)⟩ := by
  induction w generalizing found with
  | nil => rfl
  | cons c w ih =>
    obtain ⟨hc, hw⟩ := List.forall_mem_cons.1 h
    have hstep : step? ⟨ts, .number found⟩ c = some ⟨ts, .number (c :: found)⟩ := by
      simp [step?, hc]
    rw [List.foldlM_cons, hstep]
    simpa using ih hw

theorem foldlM_begin?_number (hne : w ≠ []) (h : ∀ c ∈ w, inNumber c) :
    w.foldlM step? ⟨ts, .between⟩ = some ⟨ts, .number w.reverse⟩ := by
  obtain ⟨c, w, rfl⟩ := List.exists_cons_of_ne_nil hne
  obtain ⟨hc, hw⟩ := List.forall_mem_cons.1 h
  have hspace : ¬isSpace c := by
    intro hspace
    simp only [isSpace, Bool.or_eq_true, beq_iff_eq] at hspace
    rcases hspace with ((rfl | rfl) | rfl) | rfl <;> exact absurd hc (by decide)
  have hstep : step? ⟨ts, .between⟩ c = some ⟨ts, .number [c]⟩ := by
    simp [step?, begin?, hspace, hc]
  rw [List.foldlM_cons, hstep, List.reverse_cons]
  exact foldlM_step?_number hw

/-- A number is over where no character goes on with it. -/
theorem finish?_number (h : IsNumber w) (hends : Ends (.number w) cs) :
    finish? ⟨ts, .number w.reverse⟩ cs = finish? ⟨.number w :: ts, .between⟩ cs := by
  have hnumber : number? ts w.reverse = some (.number w :: ts) := by
    rw [number?, List.reverse_reverse, if_pos (scansNumber_of_isNumber h)]
  rcases cs with _ | ⟨c, cs⟩
  · simp [finish?, end?, hnumber]
  · have hc : inNumber c = false := hends c rfl
    refine finish?_congr ?_
    simp [step?, hc, hnumber]

/-- From between two tokens the characters of a token lead to between two tokens, with the token
read. -/
theorem finish?_token {t : Token} (h : Spells t w) (hends : Ends t cs) :
    finish? ⟨ts, .between⟩ (w ++ cs) = finish? ⟨t :: ts, .between⟩ cs := by
  cases h with
  | number h =>
    rw [finish?_append (foldlM_begin?_number h.ne_nil h.inNumber)]
    exact finish?_number h hends
  | @string s w h =>
    have hopen : ['"'].foldlM step? ⟨ts, .between⟩ = some ⟨ts, .string []⟩ := rfl
    have hclose : ['"'].foldlM step? ⟨ts, .string (s.toList.reverse ++ [])⟩ =
        some ⟨.string s :: ts, .between⟩ := by
      simp [step?]
    have hall : ('"' :: w ++ ['"']).foldlM step? ⟨ts, .between⟩ =
        some ⟨.string s :: ts, .between⟩ := by
      rw [← List.singleton_append, List.append_assoc, foldlM_step?_append hopen,
        foldlM_step?_append (foldlM_step?_text h), hclose]
    exact finish?_append hall
  | _ => exact finish?_append rfl

theorem finish?_of_lexed {tokens : List Token} (h : Lexed cs tokens) (ts : List Token) :
    finish? ⟨ts, .between⟩ cs = some (ts.reverse ++ tokens) := by
  induction h generalizing ts with
  | nil => simp [finish?, end?]
  | @space c cs tokens h _ ih =>
    have hstep : [c].foldlM step? ⟨ts, .between⟩ = some ⟨ts, .between⟩ := by
      simp [step?, begin?, h]
    rw [← List.singleton_append, finish?_append hstep, ih]
  | token h hends _ ih =>
    rw [finish?_token h hends, ih, List.reverse_cons, List.append_assoc, List.singleton_append]

end Lexer

/-! ## The document of the tokens is found -/

namespace Parser

variable {around : List Around} {rest : List Token}

theorem finish?_cons {p p' : Parser} {t : Token} (h : p.step? t = some p') :
    p.finish? (t :: rest) = p'.finish? rest := by
  rw [finish?, List.foldlM_cons, h]
  rfl

/-- Where an array may end, a value may begin. -/
theorem finish?_firstItem (d : Document) :
    finish? ⟨.items [] :: around, .firstItem⟩ (d.tokens ++ rest) =
      finish? ⟨.items [] :: around, .value⟩ (d.tokens ++ rest) := by
  -- no document begins with the end of an array
  obtain ⟨t, ts, hts, ht⟩ : ∃ t ts, d.tokens = t :: ts ∧ t ≠ .endArray := by
    rcases d with _ | _ | _ | _ | (_ | ⟨item, items⟩) | (_ | ⟨⟨key, value⟩, members⟩) <;>
      exact ⟨_, _, rfl, by simp⟩
  have hstep : step? ⟨.items [] :: around, .firstItem⟩ t =
      step? ⟨.items [] :: around, .value⟩ t := by
    cases t <;> first | rfl | exact absurd rfl ht
  rw [hts, List.cons_append, finish?, finish?, List.foldlM_cons, List.foldlM_cons, hstep]

mutual

/-- From where a value is due the tokens of a document lead to after it. -/
theorem finish?_tokens : ∀ (d : Document) (around : List Around) (rest : List Token),
    finish? ⟨around, .value⟩ (d.tokens ++ rest) = finish? ⟨around, .after d⟩ rest
  | .null, _, _ => finish?_cons rfl
  | .bool _, _, _ => finish?_cons rfl
  | .number _, _, _ => finish?_cons rfl
  | .string _, _, _ => finish?_cons rfl
  | .array [], _, _ => (finish?_cons rfl).trans (finish?_cons rfl)
  | .array (item :: items), around, rest => by
    rw [Document.tokens]
    simp only [List.cons_append, List.append_assoc]
    rw [finish?_cons rfl, finish?_firstItem, finish?_tokens item]
    exact finish?_itemTokens items [] item around rest
  | .object [], _, _ => (finish?_cons rfl).trans (finish?_cons rfl)
  | .object ((key, value) :: members), around, rest => by
    rw [Document.tokens]
    simp only [List.cons_append, List.append_assoc]
    rw [finish?_cons rfl, finish?_cons rfl, finish?_cons rfl, finish?_tokens value]
    exact finish?_memberTokens members [] key value around rest

theorem finish?_itemTokens : ∀ (items done : List Document) (d : Document) (around : List Around)
    (rest : List Token),
    finish? ⟨.items done :: around, .after d⟩ (Document.itemTokens items ++ .endArray :: rest) =
      finish? ⟨around, .after (.array (done.reverse ++ d :: items))⟩ rest
  | [], done, d, around, rest => by
    rw [Document.itemTokens, List.nil_append, finish?_cons rfl, List.reverse_cons]
  | item :: items, done, d, around, rest => by
    rw [Document.itemTokens]
    simp only [List.cons_append, List.append_assoc]
    rw [finish?_cons rfl, finish?_tokens item, finish?_itemTokens items]
    simp

theorem finish?_memberTokens : ∀ (members done : List (String × Document)) (key : String)
    (d : Document) (around : List Around) (rest : List Token),
    finish? ⟨.members done key :: around, .after d⟩
        (Document.memberTokens members ++ .endObject :: rest) =
      finish? ⟨around, .after (.object (done.reverse ++ (key, d) :: members))⟩ rest
  | [], done, key, d, around, rest => by
    rw [Document.memberTokens, List.nil_append, finish?_cons rfl, List.reverse_cons]
  | (key', value) :: members, done, key, d, around, rest => by
    rw [Document.memberTokens]
    simp only [List.cons_append, List.append_assoc]
    rw [finish?_cons rfl, finish?_cons rfl, finish?_cons rfl, finish?_tokens value,
      finish?_memberTokens members]
    simp

end

end Parser

/-! ## Texts are read -/

/-- A JSON text is read as the document that it says. -/
theorem read?_of_isText {text : String} {d : Document} (h : IsText text d) :
    read? text = some d := by
  have hdocument := Parser.finish?_tokens d [] []
  rw [List.append_nil] at hdocument
  rw [read?, Lexer.finish?_of_lexed h, List.reverse_nil, List.nil_append, Option.bind_some,
    hdocument]
  rfl

/-- No text says two documents. -/
theorem IsText.unique {text : String} {d d' : Document} (h : IsText text d)
    (h' : IsText text d') : d = d' := by
  rw [← Option.some.injEq, ← read?_of_isText h, read?_of_isText h']

example : read? "[1.5, \"\\ud83d\\ude00\"]" =
    some (.array [.number ['1', '.', '5'], .string "😀"]) := rfl

example : read? "[1, ]" = none := rfl

end Json

end CodeGauge
