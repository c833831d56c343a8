import Mathlib.Data.List.Forall2
import Mathlib.Data.Fintype.Basic
import Mathlib.Tactic.FinCases
import Mathlib.Tactic.Ring
import Mathlib.Tactic.SplitIfs
import Compositor.Json.Printer

/-!
# How tokens are spelled

A token can be spelled in more than one way. A number is a sign, a whole part without needless
zeros, and perhaps a fraction and an exponent; each part is a run of decimal digits. A string is
spelled unit by unit: a character stands for itself if it needs no escape, a short escape stands
for one of eight characters, and four hexadecimal digits of either case stand for any unit of
UTF-16. A character outside of the range of a unit is spelled as itself or as a surrogate pair.
Brackets, commas, colons and the three words are spelled in one way.

A text *spells* a list of tokens if it is their spellings in order, with any blanks before,
between and behind them.

Main statements: `Token.Scanner.run_numberSpelling` and `Token.Scanner.run_quotedPieces`, a number
and a string are found however they are spelled; `Token.spell_of_spellChar`, the units of
characters spell these; and `Token.Spelled.quoted`, a string is spelled as it is written.
-/

namespace Compositor.Json

/-! ## Numbers -/

/-- The number that decimal digits spell, the first one counting most. -/
def decimalValue (digits : List (Fin 10)) : Nat :=
  digits.foldl (fun n d => n * 10 + d.val) 0

/-- Decimal digits as characters. -/
def digitChars (digits : List (Fin 10)) : List Char := digits.map fun d => Nat.digitChar d.val

/-- An exponent as it is spelled. -/
structure ExponentSpelling where
  letter : Char
  sign : Option Bool
  digits : List (Fin 10)

namespace ExponentSpelling

/-- The letter is one of two, and there is a digit. -/
def WellFormed (e : ExponentSpelling) : Prop := (e.letter = 'e' ∨ e.letter = 'E') ∧ e.digits ≠ []

/-- The characters of an exponent. -/
def chars (e : ExponentSpelling) : List Char :=
  e.letter :: (match e.sign with
    | none => []
    | some false => ['+']
    | some true => ['-']) ++ digitChars e.digits

/-- The exponent that is spelled. -/
def value (e : ExponentSpelling) : Int :=
  if e.sign = some true then -(decimalValue e.digits : Int) else decimalValue e.digits

end ExponentSpelling

/-- A number as it is spelled. -/
structure NumberSpelling where
  negative : Bool := false
  whole : List (Fin 10)
  fraction : Option (List (Fin 10)) := none
  exponent : Option ExponentSpelling := none

namespace NumberSpelling

/-- Each part has a digit, and the whole part does not begin with a zero unless it is zero. -/
structure WellFormed (s : NumberSpelling) : Prop where
  whole : s.whole = [0] ∨ ∃ d rest, s.whole = d :: rest ∧ d ≠ 0
  fraction : ∀ digits ∈ s.fraction, digits ≠ []
  exponent : ∀ e ∈ s.exponent, e.WellFormed

/-- The characters of the fraction. -/
def fractionChars (s : NumberSpelling) : List Char :=
  match s.fraction with
  | some digits => '.' :: digitChars digits
  | none => []

/-- The characters of the exponent. -/
def exponentChars (s : NumberSpelling) : List Char :=
  match s.exponent with
  | some e => e.chars
  | none => []

/-- The characters of a number. -/
def chars (s : NumberSpelling) : List Char :=
  (if s.negative then ['-'] else []) ++ digitChars s.whole ++ s.fractionChars ++ s.exponentChars

/-- The number that is spelled. -/
def number (s : NumberSpelling) : Number where
  negative := s.negative
  whole := decimalValue s.whole
  fraction := s.fraction.map fun digits => ⟨decimalValue digits, digits.length⟩
  exponent := s.exponent.map ExponentSpelling.value

end NumberSpelling

/-! ## Strings -/

/-- A unit of a string as it is spelled. -/
inductive Piece where
  /-- A character for itself. -/
  | plain (c : Char)
  /-- An escape of one letter. -/
  | short (letter : Char)
  /-- An escape of four hexadecimal digits. -/
  | hex (a b c d : Char)

namespace Piece

/-- The characters of a piece. -/
def chars : Piece → List Char
  | .plain c => [c]
  | .short letter => ['\\', letter]
  | .hex a b c d => ['\\', 'u', a, b, c, d]

/-- The unit that is spelled, if the piece is well-formed. -/
def unit? : Piece → Option Nat
  | .plain c => if c = '"' ∨ c = '\\' ∨ c.toNat < 0x20 then none else some c.toNat
  | .short letter => (Token.shortEscape? letter).map Char.toNat
  | .hex a b c d => do
    return (((← Token.hexDigit? a) * 16 + (← Token.hexDigit? b)) * 16 + (← Token.hexDigit? c)) * 16
      + (← Token.hexDigit? d)

/-- Pieces spell units. -/
def Spell (pieces : List Piece) (units : List Nat) : Prop :=
  List.Forall₂ (fun piece unit => piece.unit? = some unit) pieces units

/-- **Pieces spell a character**: as one unit, or as a surrogate pair. -/
inductive SpellChar (c : Char) : List Piece → Prop where
  | one {p : Piece} (h : p.unit? = some c.toNat) : SpellChar c [p]
  | pair {p q : Piece} (hlarge : 0x10000 ≤ c.toNat)
      (hp : p.unit? = some (0xD800 + (c.toNat - 0x10000) / 0x400))
      (hq : q.unit? = some (0xDC00 + (c.toNat - 0x10000) % 0x400)) : SpellChar c [p, q]

end Piece

/-- The string that pieces make, in its quotes. -/
def quotedPieces (pieces : List Piece) : List Char :=
  '"' :: pieces.flatMap Piece.chars ++ ['"']

/-! ## Tokens and texts -/

namespace Token

/-- **A token is spelled by some characters.** -/
inductive Spelled : Token → List Char → Prop where
  | openArray : Spelled .openArray ['[']
  | closeArray : Spelled .closeArray [']']
  | openObject : Spelled .openObject ['\x7b']
  | closeObject : Spelled .closeObject ['\x7d']
  | comma : Spelled .comma [',']
  | colon : Spelled .colon [':']
  | null : Spelled .null ['n', 'u', 'l', 'l']
  | true : Spelled (.bool true) ['t', 'r', 'u', 'e']
  | false : Spelled (.bool false) ['f', 'a', 'l', 's', 'e']
  | number {s : NumberSpelling} (h : s.WellFormed) : Spelled (.number s.number) s.chars
  /-- A string that names a text. -/
  | text {s : String} {groups : List (List Piece)}
      (h : List.Forall₂ Piece.SpellChar s.toList groups) :
      Spelled (.text (some s)) (quotedPieces groups.flatten)
  /-- A string in which half of a surrogate pair stands alone. -/
  | textless {pieces : List Piece} {units : List Nat} (h : Piece.Spell pieces units)
      (halved : spell units = none) : Spelled (.text none) (quotedPieces pieces)

/-- **A text spells tokens**, with blanks before, between and behind them. -/
inductive Spells : List Token → List Char → Prop where
  | nil {blanks : List Char} (hblanks : ∀ c ∈ blanks, isBlank c = true) : Spells [] blanks
  | cons {blanks chars rest : List Char} {t : Token} {ts : List Token}
      (hblanks : ∀ c ∈ blanks, isBlank c = true) (ht : t.Spelled chars) (hrest : Spells ts rest) :
      Spells (t :: ts) (blanks ++ chars ++ rest)

/-- Whether a token is a number. -/
def isNumber : Token → Bool
  | .number _ => true
  | _ => false

/-- No two numbers follow each other. -/
def Apart (ts : List Token) : Prop :=
  ts.IsChain fun t t' => ¬ (t.isNumber = true ∧ t'.isNumber = true)

namespace Scanner

theorem run_cons (s : Scanner) (c : Char) (cs : List Char) :
    s.run (c :: cs) = (s.step c).bind fun s' => s'.run cs :=
  List.foldlM_cons

/-! ## Scanning numbers -/

theorem digit?_digitChar (d : Fin 10) : digit? (Nat.digitChar d.val) = some d.val := by
  revert d
  decide

theorem step_number {found : List Token} {part part' : NumberPart} {n n' : Number} {c : Char}
    (h : continueNumber? part n c = some (part', n')) :
    step ⟨found, .number part n⟩ c = some ⟨found, .number part' n'⟩ := by
  simp only [step, h]

/-- A run of digits in a part of a number that goes on with each digit. -/
theorem run_digits {part : NumberPart} {push : Number → Fin 10 → Number}
    (h : ∀ n d, continueNumber? part n (Nat.digitChar d.val) = some (part, push n d))
    (found : List Token) (n : Number) (digits : List (Fin 10)) :
    run ⟨found, .number part n⟩ (digitChars digits) =
      some ⟨found, .number part (digits.foldl push n)⟩ := by
  induction digits generalizing n with
  | nil => rfl
  | cons d rest ih =>
    rw [digitChars, List.map_cons, run_cons, step_number (h n d)]
    exact ih (push n d)

/-- A run of digits that begins a part of a number. -/
theorem run_digits_begin {before part : NumberPart} {push : Number → Fin 10 → Number}
    (hfirst : ∀ n d, continueNumber? before n (Nat.digitChar d.val) = some (part, push n d))
    (h : ∀ n d, continueNumber? part n (Nat.digitChar d.val) = some (part, push n d))
    (found : List Token) (n : Number) {digits : List (Fin 10)} (hne : digits ≠ []) :
    run ⟨found, .number before n⟩ (digitChars digits) =
      some ⟨found, .number part (digits.foldl push n)⟩ := by
  cases digits with
  | nil => exact absurd rfl hne
  | cons d rest =>
    rw [digitChars, List.map_cons, run_cons, step_number (hfirst n d)]
    exact run_digits h found (push n d) rest

/-- A part of a number that is built up digit by digit. -/
theorem foldl_part {α : Type} (get : Number → α) (set : Number → α → Number)
    (hget : ∀ n x, get (set n x) = x) (hset : ∀ n x y, set (set n x) y = set n y)
    (push : α → Fin 10 → α) (n : Number) {digits : List (Fin 10)} (hne : digits ≠ []) :
    digits.foldl (fun n d => set n (push (get n) d)) n = set n (digits.foldl push (get n)) := by
  induction digits generalizing n with
  | nil => exact absurd rfl hne
  | cons d rest ih =>
    cases rest with
    | nil => rfl
    | cons d' rest =>
      rw [List.foldl_cons, ih _ (List.cons_ne_nil _ _), hget, hset]
      rfl

theorem foldl_push (v k : Nat) (digits : List (Fin 10)) :
    digits.foldl (fun (r : Digits) d => r.push d.val) ⟨v, k⟩ =
      ⟨digits.foldl (fun w d => w * 10 + d.val) v, k + digits.length⟩ := by
  induction digits generalizing v k with
  | nil => rfl
  | cons d rest ih =>
    rw [List.foldl_cons, Digits.push, ih, List.foldl_cons, List.length_cons, Nat.add_right_comm,
      Nat.add_assoc]

theorem foldl_signed (sign : Int) (v : Nat) (digits : List (Fin 10)) :
    digits.foldl (fun (e : Int) d => e * 10 + sign * d.val) (sign * v) =
      sign * (digits.foldl (fun w d => w * 10 + d.val) v : Nat) := by
  induction digits generalizing v with
  | nil => rfl
  | cons d rest ih =>
    rw [List.foldl_cons, List.foldl_cons, ← ih]
    congr 1
    push_cast
    ring

/-- Scanning the sign and the whole part. -/
theorem run_whole (found : List Token) (negative : Bool) {digits : List (Fin 10)}
    (h : digits = [0] ∨ ∃ d rest, digits = d :: rest ∧ d ≠ 0) :
    ∃ part : NumberPart, (part = .zero ∨ part = .whole) ∧
      run ⟨found, .between⟩ ((if negative then ['-'] else []) ++ digitChars digits) =
        some ⟨found, .number part { negative, whole := decimalValue digits }⟩ := by
  -- A digit that is not zero begins the whole part, with a sign before it and without.
  have hbegin (d : Fin 10) (hd : d ≠ 0) :
      run ⟨found, .between⟩ ((if negative then ['-'] else []) ++ [Nat.digitChar d.val]) =
        some ⟨found, .number .whole { negative, whole := d.val }⟩ := by
    cases negative <;> fin_cases d <;> first | exact absurd rfl hd | rfl
  rcases h with rfl | ⟨d, rest, rfl, hd⟩
  · refine ⟨.zero, .inl rfl, ?_⟩
    cases negative <;> rfl
  · refine ⟨.whole, .inr rfl, ?_⟩
    have hstep (n : Number) (d : Fin 10) :
        continueNumber? .whole n (Nat.digitChar d.val) =
          some (.whole, { n with whole := n.whole * 10 + d.val }) := by
      simp only [continueNumber?, digit?_digitChar]
    have hchars : (if negative then ['-'] else []) ++ digitChars (d :: rest) =
        ((if negative then ['-'] else []) ++ [Nat.digitChar d.val]) ++ digitChars rest := by
      rw [List.append_assoc]
      rfl
    rw [hchars, run_append, hbegin d hd, Option.bind_some, run_digits hstep]
    cases rest with
    | nil => simp [decimalValue]
    | cons d' rest =>
      rw [foldl_part Number.whole (fun n w => { n with whole := w })
        (fun _ _ => rfl) (fun _ _ _ => rfl) (fun w d => w * 10 + d.val) _ (List.cons_ne_nil _ _)]
      simp [decimalValue]

/-- Scanning a fraction behind the whole part. -/
theorem run_fraction (found : List Token) {part : NumberPart}
    (hpart : part = .zero ∨ part = .whole) {n : Number} (hn : n.fraction = none)
    {digits : List (Fin 10)} (hne : digits ≠ []) :
    run ⟨found, .number part n⟩ ('.' :: digitChars digits) =
      some ⟨found, .number .fraction
        { n with fraction := some ⟨decimalValue digits, digits.length⟩ }⟩ := by
  have hpoint : continueNumber? part n '.' = some (.point, n) := by
    rcases hpart with rfl | rfl <;> rfl
  have hstep (before : NumberPart) (hbefore : before = .point ∨ before = .fraction) (n : Number)
      (d : Fin 10) : continueNumber? before n (Nat.digitChar d.val) =
        some (.fraction,
          { n with fraction := some ((n.fraction.getD ⟨0, 0⟩).push d.val) }) := by
    rcases hbefore with rfl | rfl <;> simp only [continueNumber?, digit?_digitChar]
  rw [run_cons, step_number hpoint, Option.bind_some,
    run_digits_begin (hstep .point (.inl rfl)) (hstep .fraction (.inr rfl)) found n hne,
    foldl_part (fun n => n.fraction.getD ⟨0, 0⟩)
      (fun n r => { n with fraction := some r }) (fun _ _ => rfl) (fun _ _ _ => rfl)
      (fun r d => r.push d.val) n hne, hn, Option.getD_none, foldl_push, Nat.zero_add]
  rfl

/-- Scanning an exponent behind the whole part or the fraction. -/
theorem run_exponent (found : List Token) {part : NumberPart}
    (hpart : part = .zero ∨ part = .whole ∨ part = .fraction) {n : Number}
    (hn : n.exponent = none) {e : ExponentSpelling} (he : e.WellFormed) :
    ∃ negative, run ⟨found, .number part n⟩ e.chars =
      some ⟨found, .number (.exponentDigits negative) { n with exponent := some e.value }⟩ := by
  obtain ⟨letter, sign, digits⟩ := e
  obtain ⟨hletter, hne⟩ := he
  dsimp only at hletter hne
  have hexponent : continueNumber? part n letter = some (.exponent, n) := by
    rcases hpart with rfl | rfl | rfl <;> rcases hletter with rfl | rfl <;> rfl
  have hpositive (before : NumberPart)
      (hbefore : before = .exponent ∨ before = .exponentSign false ∨
        before = .exponentDigits false) (n : Number) (d : Fin 10) :
      continueNumber? before n (Nat.digitChar d.val) = some (.exponentDigits false,
        { n with exponent := some (n.exponent.getD 0 * 10 + 1 * d.val) }) := by
    rcases hbefore with rfl | rfl | rfl <;>
      simp only [continueNumber?, digit?_digitChar, Int.one_mul]
  have hnegative (before : NumberPart)
      (hbefore : before = .exponentSign true ∨ before = .exponentDigits true) (n : Number)
      (d : Fin 10) : continueNumber? before n (Nat.digitChar d.val) = some (.exponentDigits true,
        { n with exponent := some (n.exponent.getD 0 * 10 + -1 * d.val) }) := by
    rcases hbefore with rfl | rfl <;>
      simp only [continueNumber?, digit?_digitChar, Int.neg_one_mul, Int.sub_eq_add_neg]
  have hfold (s : Int) :
      digits.foldl (fun n d => { n with exponent := some (n.exponent.getD 0 * 10 + s * d.val) }) n =
        { n with exponent := some (s * decimalValue digits) } := by
    rw [foldl_part (fun n => n.exponent.getD 0)
      (fun n e => { n with exponent := some e }) (fun _ _ => rfl) (fun _ _ _ => rfl)
      (fun e d => e * 10 + s * d.val) n hne, hn, Option.getD_none]
    have hsigned := foldl_signed s 0 digits
    rw [Nat.cast_zero, Int.mul_zero] at hsigned
    rw [hsigned]
    rfl
  unfold ExponentSpelling.chars ExponentSpelling.value
  rw [List.cons_append, run_cons, step_number hexponent, Option.bind_some]
  match sign with
  | none =>
    refine ⟨false, ?_⟩
    rw [List.nil_append, run_digits_begin (hpositive _ (.inl rfl)) (hpositive _ (.inr (.inr rfl)))
      found n hne, hfold, Int.one_mul]
    rfl
  | some false =>
    refine ⟨false, ?_⟩
    have hsign : continueNumber? .exponent n '+' = some (.exponentSign false, n) := rfl
    rw [List.singleton_append, run_cons, step_number hsign, Option.bind_some,
      run_digits_begin (hpositive _ (.inr (.inl rfl))) (hpositive _ (.inr (.inr rfl))) found n hne,
      hfold, Int.one_mul]
    rfl
  | some true =>
    refine ⟨true, ?_⟩
    have hsign : continueNumber? .exponent n '-' = some (.exponentSign true, n) := rfl
    rw [List.singleton_append, run_cons, step_number hsign, Option.bind_some,
      run_digits_begin (hnegative _ (.inl rfl)) (hnegative _ (.inr rfl)) found n hne, hfold,
      Int.neg_one_mul]
    rfl

/-- **Scanning a number** ends in a part where it may end. -/
theorem run_numberSpelling (found : List Token) {s : NumberSpelling} (h : s.WellFormed) :
    ∃ part : NumberPart, part.isComplete = true ∧
      run ⟨found, .between⟩ s.chars = some ⟨found, .number part s.number⟩ := by
  obtain ⟨part, hpart, hwhole⟩ := run_whole found s.negative h.whole
  -- What is scanned before the exponent.
  let front : Number := { s.number with exponent := none }
  obtain ⟨part', hpart', hfront⟩ : ∃ part' : NumberPart,
      (part' = .zero ∨ part' = .whole ∨ part' = .fraction) ∧
      run ⟨found, .between⟩ ((if s.negative then ['-'] else []) ++ digitChars s.whole ++
        s.fractionChars) = some ⟨found, .number part' front⟩ := by
    unfold NumberSpelling.fractionChars front NumberSpelling.number
    cases hfraction : s.fraction with
    | none =>
      refine ⟨part, hpart.imp_right .inl, ?_⟩
      dsimp only
      rw [List.append_nil, hwhole]
      rfl
    | some digits =>
      refine ⟨.fraction, .inr (.inr rfl), ?_⟩
      dsimp only
      rw [run_append, hwhole, Option.bind_some,
        run_fraction found hpart rfl (h.fraction digits hfraction)]
      rfl
  unfold NumberSpelling.chars NumberSpelling.exponentChars
  rw [run_append, hfront, Option.bind_some]
  cases hexponent : s.exponent with
  | none =>
    have hnumber : front = s.number := by
      unfold front NumberSpelling.number
      rw [hexponent]
      rfl
    refine ⟨part', by rcases hpart' with rfl | rfl | rfl <;> rfl, ?_⟩
    rw [hnumber]
    rfl
  | some e =>
    obtain ⟨negative, hrun⟩ := run_exponent found hpart' (rfl : front.exponent = none)
      (h.exponent e hexponent)
    refine ⟨.exponentDigits negative, rfl, hrun.trans ?_⟩
    unfold front NumberSpelling.number
    rw [hexponent]
    rfl

/-! ## Scanning strings -/

/-- Scanning a piece of a string. -/
theorem run_piece (found : List Token) (units : List Nat) {p : Piece} {u : Nat}
    (h : p.unit? = some u) :
    run ⟨found, .text units⟩ p.chars = some ⟨found, .text (u :: units)⟩ := by
  cases p with
  | plain c =>
    simp only [Piece.unit?] at h
    split at h
    · cases h
    · next hplain =>
      cases h
      simp only [not_or] at hplain
      obtain ⟨hquote, hbackslash, hcontrol⟩ := hplain
      simp only [Piece.chars, run_cons, step, if_neg hquote, if_neg hbackslash, if_neg hcontrol]
      rfl
  | short letter =>
    obtain ⟨c, hc, rfl⟩ := Option.map_eq_some_iff.1 h
    have hletter : letter ≠ 'u' := by
      rintro rfl
      cases hc
    have hescape : step ⟨found, .text units⟩ '\\' = some ⟨found, .escape units⟩ := rfl
    have hshort : step ⟨found, .escape units⟩ letter = some ⟨found, .text (c.toNat :: units)⟩ := by
      simp only [step, if_neg hletter, hc, Option.map_some]
    simp only [Piece.chars, run_cons, hescape, hshort, Option.bind_some]
    rfl
  | hex a b c d =>
    simp only [Piece.unit?, Option.bind_eq_bind, Option.bind_eq_some_iff, Option.pure_def,
      Option.some.injEq] at h
    obtain ⟨da, ha, db, hb, dc, hc, dd, hd, rfl⟩ := h
    have hescape : step ⟨found, .text units⟩ '\\' = some ⟨found, .escape units⟩ := rfl
    have hhex : step ⟨found, .escape units⟩ 'u' = some ⟨found, .hex units 4 0⟩ := rfl
    have hdigit (missing value : Nat) {x : Char} {dx : Nat} (hx : hexDigit? x = some dx) :
        step ⟨found, .hex units (missing + 2) value⟩ x =
          some ⟨found, .hex units (missing + 1) (value * 16 + dx)⟩ := by
      simp only [step, hx, Option.map_some]
    have hlast (value : Nat) {x : Char} {dx : Nat} (hx : hexDigit? x = some dx) :
        step ⟨found, .hex units 1 value⟩ x =
          some ⟨found, .text ((value * 16 + dx) :: units)⟩ := by
      simp only [step, hx, Option.map_some]
    simp only [Piece.chars, run_cons, hescape, hhex, hdigit 2 _ ha, hdigit 1 _ hb, hdigit 0 _ hc,
      hlast _ hd, Option.bind_some, Nat.zero_mul, Nat.zero_add]
    rfl

/-- Scanning the pieces of a string. -/
theorem run_pieces (found : List Token) (before : List Nat) {pieces : List Piece}
    {units : List Nat} (h : Piece.Spell pieces units) :
    run ⟨found, .text before⟩ (pieces.flatMap Piece.chars) =
      some ⟨found, .text (units.reverse ++ before)⟩ := by
  induction h generalizing before with
  | nil => rfl
  | cons hp _ ih =>
    rw [List.flatMap_cons, run_append, run_piece found before hp, Option.bind_some, ih,
      List.reverse_cons, List.append_assoc, List.singleton_append]

/-- Scanning a string finds the text that its units spell. -/
theorem run_quotedPieces (found : List Token) {pieces : List Piece} {units : List Nat}
    (h : Piece.Spell pieces units) :
    run ⟨found, .between⟩ (quotedPieces pieces) =
      some ⟨.text ((spell units).map String.ofList) :: found, .between⟩ := by
  have hopen : step ⟨found, .between⟩ '"' = some ⟨found, .text []⟩ := rfl
  have hclose (units : List Nat) :
      run ⟨found, .text units⟩ ['"'] = some ⟨textToken units :: found, .between⟩ := rfl
  rw [quotedPieces, List.cons_append, run_cons, hopen, Option.bind_some, run_append,
    run_pieces found [] h, Option.bind_some, hclose, List.append_nil, textToken,
    List.reverse_reverse]

end Scanner

/-! ## Units -/

/-- A unit that is no half stands for a character. -/
theorem spell_cons {u : Nat} (hhigh : isHighHalf u = false) (hlow : isLowHalf u = false)
    (units : List Nat) : spell (u :: units) = (spell units).map (Char.ofNat u :: ·) := by
  cases units with
  | nil => simp [spell, hhigh, hlow]
  | cons v rest => simp [spell, hhigh, hlow]

/-- Two halves stand for a character. -/
theorem spell_pair {u v : Nat} (hhigh : isHighHalf u = true) (hlow : isLowHalf v = true)
    (units : List Nat) : spell (u :: v :: units) =
      (spell units).map (Char.ofNat (0x10000 + (u - 0xD800) * 0x400 + (v - 0xDC00)) :: ·) := by
  simp [spell, hhigh, hlow]

/-- **The units of characters spell these.** -/
theorem spell_of_spellChar {cs : List Char} {groups : List (List Piece)}
    (h : List.Forall₂ Piece.SpellChar cs groups) :
    ∃ units, Piece.Spell groups.flatten units ∧ spell units = some cs := by
  induction h with
  | nil => exact ⟨[], .nil, rfl⟩
  | @cons c group cs groups hc _ ih =>
    obtain ⟨units, hunits, hspell⟩ := ih
    have hvalid : c.toNat < 0xD800 ∨ 0xDFFF < c.toNat ∧ c.toNat < 0x110000 := c.valid
    cases hc with
    | one hp =>
      refine ⟨c.toNat :: units, .cons hp hunits, ?_⟩
      have hhigh : isHighHalf c.toNat = false := by
        unfold isHighHalf
        simp only [Bool.and_eq_false_iff, decide_eq_false_iff_not]
        omega
      have hlow : isLowHalf c.toNat = false := by
        unfold isLowHalf
        simp only [Bool.and_eq_false_iff, decide_eq_false_iff_not]
        omega
      rw [spell_cons hhigh hlow, hspell, Option.map_some, Char.ofNat_toNat]
    | pair hlarge hp hq =>
      refine ⟨_ :: _ :: units, .cons hp (.cons hq hunits), ?_⟩
      have hhigh : isHighHalf (0xD800 + (c.toNat - 0x10000) / 0x400) = true := by
        unfold isHighHalf
        simp only [Bool.and_eq_true, decide_eq_true_eq]
        omega
      have hlow : isLowHalf (0xDC00 + (c.toNat - 0x10000) % 0x400) = true := by
        unfold isLowHalf
        simp only [Bool.and_eq_true, decide_eq_true_eq]
        omega
      have hjoin : 0x10000 + (0xD800 + (c.toNat - 0x10000) / 0x400 - 0xD800) * 0x400 +
          (0xDC00 + (c.toNat - 0x10000) % 0x400 - 0xDC00) = c.toNat := by
        omega
      rw [spell_pair hhigh hlow, hspell, hjoin, Option.map_some, Char.ofNat_toNat]

end Token

/-! ## Strings as they are written -/

/-- A character as a piece of a string that is written. -/
def escapePiece (c : Char) : Piece :=
  if c = '"' then .short '"'
  else if c = '\\' then .short '\\'
  else if c = '\x08' then .short 'b'
  else if c = '\x0c' then .short 'f'
  else if c = '\n' then .short 'n'
  else if c = '\r' then .short 'r'
  else if c = '\t' then .short 't'
  else if c.toNat < 0x20 then .hex '0' '0' (hexDigit (c.toNat / 16)) (hexDigit (c.toNat % 16))
  else .plain c

theorem chars_escapePiece (c : Char) : (escapePiece c).chars = escape c := by
  unfold escapePiece escape
  split_ifs <;> rfl

theorem hexDigit?_hexDigit : ∀ d < 16, Token.hexDigit? (hexDigit d) = some d := by decide

theorem unit?_escapePiece (c : Char) : (escapePiece c).unit? = some c.toNat := by
  unfold escapePiece
  split_ifs with hquote hbackslash hback hfeed hline hreturn htab hcontrol
  · rw [hquote]
    rfl
  · rw [hbackslash]
    rfl
  · rw [hback]
    rfl
  · rw [hfeed]
    rfl
  · rw [hline]
    rfl
  · rw [hreturn]
    rfl
  · rw [htab]
    rfl
  · have hzero : Token.hexDigit? '0' = some 0 := rfl
    have hhigh := hexDigit?_hexDigit (c.toNat / 16) (by omega)
    have hlow := hexDigit?_hexDigit (c.toNat % 16) (by omega)
    simp only [Piece.unit?, hzero, hhigh, hlow, Option.bind_eq_bind, Option.bind_some,
      Option.pure_def, Option.some.injEq]
    omega
  · exact if_neg (by simp only [hquote, hbackslash, hcontrol, or_self, not_false_eq_true])

/-- **A string is spelled as it is written.** -/
theorem Token.Spelled.quoted (s : String) : Token.Spelled (.text (some s)) (quoted (some s)) := by
  have hgroups : List.Forall₂ Piece.SpellChar s.toList (s.toList.map fun c => [escapePiece c]) :=
    List.forall₂_map_right_iff.2 (List.forall₂_same.2 fun c _ => .one (unit?_escapePiece c))
  have hpieces : (s.toList.map fun c => [escapePiece c]).flatten = s.toList.map escapePiece := by
    rw [← List.flatMap_def, ← List.map_eq_flatMap]
  have hchars : quotedPieces (s.toList.map escapePiece) = Json.quoted (some s) := by
    simp only [quotedPieces, Json.quoted, List.flatMap_map, chars_escapePiece]
  rw [← hchars, ← hpieces]
  exact .text hgroups

end Compositor.Json
