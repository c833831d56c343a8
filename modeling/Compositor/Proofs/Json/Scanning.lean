import Compositor.Proofs.Json.Spelling

/-!
# Whatever is scanned is spelled

The scanner takes one character at a time, so after any characters it is in the middle of some
token, or between two. What it took by then is a text that spells the tokens found, and behind
it the characters of a token that is not complete: the front of a word, of a number, of a string
(`Token.Pending`). A character either goes on with that token, or completes it, or stands behind
it; and where the scanner may stop, nothing is left over but a token that is complete.

Main statement: `Token.spells_of_scan`, a text spells the tokens that are found in it.
-/

namespace Compositor.Json

/-! ## Digits -/

theorem decimalValue_concat (digits : List (Fin 10)) (d : Fin 10) :
    decimalValue (digits ++ [d]) = decimalValue digits * 10 + d.val :=
  List.foldl_concat ..

theorem digitChars_concat (digits : List (Fin 10)) (d : Fin 10) :
    digitChars (digits ++ [d]) = digitChars digits ++ [Nat.digitChar d.val] :=
  List.map_append

/-- A range of characters is a range of their numbers. -/
theorem toNat_range {c low high : Char} (h : low ≤ c ∧ c ≤ high) :
    low.toNat ≤ c.toNat ∧ c.toNat ≤ high.toNat :=
  ⟨UInt32.le_iff_toNat_le.1 (Char.le_def.1 h.1), UInt32.le_iff_toNat_le.1 (Char.le_def.1 h.2)⟩

/-- A digit is one of ten characters. -/
theorem exists_digitChar {c : Char} {k : Nat} (h : Token.digit? c = some k) :
    ∃ d : Fin 10, k = d.val ∧ c = Nat.digitChar d.val := by
  unfold Token.digit? at h
  split at h
  · next hrange =>
    cases h
    obtain ⟨hlow, hhigh⟩ : 48 ≤ c.toNat ∧ c.toNat ≤ 57 := toNat_range hrange
    obtain ⟨k, hk⟩ := Nat.exists_eq_add_of_le hlow
    have hlt : k < 10 := by omega
    have hzero : '0'.toNat = 48 := rfl
    have hchar : c = Nat.digitChar k := by
      have hdigit : ∀ d : Fin 10, Char.ofNat (48 + d.val) = Nat.digitChar d.val := by decide
      rw [← Char.ofNat_toNat c, hk]
      exact hdigit ⟨k, hlt⟩
    exact ⟨⟨k, hlt⟩, by rw [hk, hzero, Nat.add_sub_cancel_left], hchar⟩
  · cases h

/-! ## Numbers -/

namespace NumberSpelling

/-- The number as far as it is spelled: a fraction and an exponent are there from their first
digit on. -/
def soFar (s : NumberSpelling) : Number where
  negative := s.negative
  whole := decimalValue s.whole
  fraction := s.fraction.bind fun digits =>
    if digits = [] then none else some ⟨decimalValue digits, digits.length⟩
  exponent := s.exponent.bind fun e => if e.digits = [] then none else some e.value

/-- A whole part that needs no more digits. -/
def IsWhole (digits : List (Fin 10)) : Prop :=
  digits = [0] ∨ ∃ d rest, digits = d :: rest ∧ d ≠ 0

/-- **A number is spelled up to some part of it.** -/
inductive Begun : NumberSpelling → Token.NumberPart → Prop where
  | sign : Begun { negative := true, whole := [] } .sign
  | zero (negative : Bool) : Begun { negative, whole := [0] } .zero
  | whole (negative : Bool) {d : Fin 10} (rest : List (Fin 10)) (hd : d ≠ 0) :
    Begun { negative, whole := d :: rest } .whole
  | point (negative : Bool) {whole : List (Fin 10)} (hwhole : IsWhole whole) :
    Begun { negative, whole, fraction := some [] } .point
  | fraction (negative : Bool) {whole digits : List (Fin 10)} (hwhole : IsWhole whole)
    (hne : digits ≠ []) : Begun { negative, whole, fraction := some digits } .fraction
  | exponent (negative : Bool) {whole : List (Fin 10)} {fraction : Option (List (Fin 10))}
    {letter : Char} (hwhole : IsWhole whole) (hfraction : ∀ digits ∈ fraction, digits ≠ [])
    (hletter : letter = 'e' ∨ letter = 'E') :
    Begun { negative, whole, fraction, exponent := some ⟨letter, none, []⟩ } .exponent
  | exponentSign (negative minus : Bool) {whole : List (Fin 10)}
    {fraction : Option (List (Fin 10))} {letter : Char} (hwhole : IsWhole whole)
    (hfraction : ∀ digits ∈ fraction, digits ≠ []) (hletter : letter = 'e' ∨ letter = 'E') :
    Begun { negative, whole, fraction, exponent := some ⟨letter, some minus, []⟩ }
      (.exponentSign minus)
  | exponentDigits (negative : Bool) (sign : Option Bool) {whole digits : List (Fin 10)}
    {fraction : Option (List (Fin 10))} {letter : Char} (hwhole : IsWhole whole)
    (hfraction : ∀ digits ∈ fraction, digits ≠ []) (hletter : letter = 'e' ∨ letter = 'E')
    (hne : digits ≠ []) :
    Begun { negative, whole, fraction, exponent := some ⟨letter, sign, digits⟩ }
      (.exponentDigits (decide (sign = some true)))

open Token Scanner

variable {s : NumberSpelling} {part part' : Token.NumberPart} {n : Number} {c : Char}

/-- A number that may end is well-formed. -/
theorem Begun.wellFormed (h : s.Begun part) (hcomplete : part.isComplete = true) :
    s.WellFormed := by
  cases h with
  | zero => exact ⟨.inl rfl, nofun, nofun⟩
  | whole negative rest hd => exact ⟨.inr ⟨_, _, rfl, hd⟩, nofun, nofun⟩
  | fraction negative hwhole hne =>
    refine ⟨hwhole, fun digits hdigits => ?_, nofun⟩
    cases hdigits
    exact hne
  | exponentDigits negative sign hwhole hfraction hletter hne =>
    refine ⟨hwhole, hfraction, fun e he => ?_⟩
    cases he
    exact ⟨hletter, hne⟩
  | sign | point | exponent | exponentSign => cases hcomplete

/-- A well-formed number is there as it is spelled. -/
theorem WellFormed.soFar_eq (h : s.WellFormed) : s.soFar = s.number := by
  obtain ⟨negative, whole, fraction, exponent⟩ := s
  have hfraction : (fraction.bind fun digits => if digits = [] then none
      else some (⟨decimalValue digits, digits.length⟩ : Digits)) =
      fraction.map fun digits => ⟨decimalValue digits, digits.length⟩ := by
    cases fraction with
    | none => rfl
    | some digits => exact if_neg (h.fraction digits rfl)
  have hexponent : (exponent.bind fun e => if e.digits = [] then none else some e.value) =
      exponent.map ExponentSpelling.value := by
    cases exponent with
    | none => rfl
    | some e => exact if_neg (h.exponent e rfl).2
  show (⟨_, _, _, _⟩ : Number) = ⟨_, _, _, _⟩
  rw [hfraction, hexponent]

/-! ### One more character -/

/-- A fraction after one more digit. -/
theorem soFar_fraction (negative : Bool) (whole digits : List (Fin 10)) (d : Fin 10) :
    soFar { negative, whole, fraction := some (digits ++ [d]) } =
      let n := soFar { negative, whole, fraction := some digits }
      { n with fraction := some ((n.fraction.getD ⟨0, 0⟩).push d.val) } := by
  have hpush : (⟨decimalValue (digits ++ [d]), (digits ++ [d]).length⟩ : Digits) =
      ((if digits = [] then none
        else some (⟨decimalValue digits, digits.length⟩ : Digits)).getD ⟨0, 0⟩).push d.val := by
    rw [decimalValue_concat, List.length_append]
    by_cases hnil : digits = []
    · subst hnil
      rfl
    · rw [if_neg hnil]
      rfl
  have hne : digits ++ [d] ≠ [] := List.append_ne_nil_of_right_ne_nil _ (List.cons_ne_nil _ _)
  simp only [soFar, Option.bind_some, if_neg hne, hpush]

/-- An exponent after one more digit. -/
theorem soFar_exponent (negative : Bool) (whole : List (Fin 10))
    (fraction : Option (List (Fin 10))) (letter : Char) (sign : Option Bool)
    (digits : List (Fin 10)) (d : Fin 10) :
    soFar { negative, whole, fraction, exponent := some ⟨letter, sign, digits ++ [d]⟩ } =
      let n := soFar { negative, whole, fraction, exponent := some ⟨letter, sign, digits⟩ }
      { n with exponent := some (if sign = some true then n.exponent.getD 0 * 10 - d.val
          else n.exponent.getD 0 * 10 + d.val) } := by
  have hpush : ExponentSpelling.value ⟨letter, sign, digits ++ [d]⟩ =
      (if sign = some true then
        (if digits = [] then none
          else some (ExponentSpelling.value ⟨letter, sign, digits⟩)).getD 0 * 10 - d.val
      else (if digits = [] then none
          else some (ExponentSpelling.value ⟨letter, sign, digits⟩)).getD 0 * 10 + d.val) := by
    have hvalue : ((if digits = [] then none
        else some (ExponentSpelling.value ⟨letter, sign, digits⟩)).getD 0) =
        ExponentSpelling.value ⟨letter, sign, digits⟩ := by
      by_cases hnil : digits = []
      · subst hnil
        rw [if_pos rfl]
        unfold ExponentSpelling.value decimalValue
        split <;> rfl
      · rw [if_neg hnil]
        rfl
    rw [hvalue]
    unfold ExponentSpelling.value
    rw [decimalValue_concat]
    split <;> push_cast <;> ring
  have hne : digits ++ [d] ≠ [] := List.append_ne_nil_of_right_ne_nil _ (List.cons_ne_nil _ _)
  simp only [soFar, Option.bind_some, if_neg hne, hpush]

theorem chars_concat_whole (negative : Bool) (whole : List (Fin 10)) (d : Fin 10) :
    chars { negative, whole := whole ++ [d] } =
      chars { negative, whole } ++ [Nat.digitChar d.val] := by
  simp [chars, fractionChars, exponentChars, digitChars_concat]

theorem chars_concat_fraction (negative : Bool) (whole digits : List (Fin 10)) (d : Fin 10) :
    chars { negative, whole, fraction := some (digits ++ [d]) } =
      chars { negative, whole, fraction := some digits } ++ [Nat.digitChar d.val] := by
  simp [chars, fractionChars, exponentChars, digitChars_concat]

theorem chars_exponent (negative : Bool) (whole : List (Fin 10))
    (fraction : Option (List (Fin 10))) (e : ExponentSpelling) :
    chars { negative, whole, fraction, exponent := some e } =
      chars { negative, whole, fraction } ++ e.chars := by
  simp [chars, fractionChars, exponentChars]

theorem chars_concat_exponent (negative : Bool) (whole : List (Fin 10))
    (fraction : Option (List (Fin 10))) (letter : Char) (sign : Option Bool)
    (digits : List (Fin 10)) (d : Fin 10) :
    chars { negative, whole, fraction, exponent := some ⟨letter, sign, digits ++ [d]⟩ } =
      chars { negative, whole, fraction, exponent := some ⟨letter, sign, digits⟩ }
        ++ [Nat.digitChar d.val] := by
  simp [chars_exponent, ExponentSpelling.chars, digitChars_concat]

/-- A number goes on with a digit. -/
theorem Begun.digit (h : s.Begun part) {d : Fin 10}
    (hd : continueNumber? part s.soFar (Nat.digitChar d.val) = some (part', n)) :
    ∃ s', Begun s' part' ∧ s'.chars = s.chars ++ [Nat.digitChar d.val] ∧ s'.soFar = n := by
  unfold continueNumber? at hd
  rw [digit?_digitChar d] at hd
  cases h with
  | sign =>
    cases hval : d.val with
    | zero =>
      rw [hval] at hd
      cases hd
      exact ⟨_, .zero true, rfl, rfl⟩
    | succ k =>
      rw [hval] at hd
      cases hd
      have hne : d ≠ 0 := fun heq => Nat.succ_ne_zero k (hval.symm.trans (congrArg Fin.val heq))
      have hwhole : decimalValue [d] = k + 1 := (Nat.zero_add _).trans hval
      refine ⟨_, .whole true [] hne, by rw [← hval]; rfl, ?_⟩
      rw [soFar, hwhole]
      rfl
  | zero negative => cases hd
  | @whole negative d' rest hne =>
    cases hd
    refine ⟨_, .whole negative (rest ++ [d]) hne, chars_concat_whole negative (d' :: rest) d, ?_⟩
    have hwhole := decimalValue_concat (d' :: rest) d
    rw [List.cons_append] at hwhole
    rw [soFar, hwhole]
    rfl
  | @point negative whole hwhole =>
    cases hd
    exact ⟨_, .fraction negative hwhole (List.cons_ne_nil d []),
      chars_concat_fraction negative whole [] d, soFar_fraction negative whole [] d⟩
  | @fraction negative whole digits hwhole hne =>
    cases hd
    exact ⟨_, .fraction negative hwhole (List.append_ne_nil_of_left_ne_nil hne [d]),
      chars_concat_fraction negative whole digits d, soFar_fraction negative whole digits d⟩
  | @exponent negative whole fraction letter hwhole hfraction hletter =>
    cases hd
    exact ⟨_, .exponentDigits negative none hwhole hfraction hletter (List.cons_ne_nil d []),
      chars_concat_exponent negative whole fraction letter none [] d,
      soFar_exponent negative whole fraction letter none [] d⟩
  | @exponentSign negative minus whole fraction letter hwhole hfraction hletter =>
    have hchars := chars_concat_exponent negative whole fraction letter (some minus) [] d
    have hsoFar := soFar_exponent negative whole fraction letter (some minus) [] d
    cases minus <;> cases hd <;>
      exact ⟨_, .exponentDigits negative _ hwhole hfraction hletter (List.cons_ne_nil d []),
        hchars, hsoFar⟩
  | @exponentDigits negative sign whole digits fraction letter hwhole hfraction hletter hne =>
    have hchars := chars_concat_exponent negative whole fraction letter sign digits d
    have hsoFar := soFar_exponent negative whole fraction letter sign digits d
    have hbegun := Begun.exponentDigits negative sign hwhole hfraction hletter
      (List.append_ne_nil_of_left_ne_nil hne [d])
    match sign with
    | none | some false | some true =>
      cases hd
      exact ⟨_, hbegun, hchars, hsoFar⟩

/-- A whole part goes on with a point, or with the letter of an exponent. -/
theorem exists_begun_of_isWhole (negative : Bool) {whole : List (Fin 10)} (hwhole : IsWhole whole)
    (hd : (if c = '.' then some (.point, soFar { negative, whole })
      else if c = 'e' ∨ c = 'E' then some (.exponent, soFar { negative, whole })
      else none) = some (part', n)) :
    ∃ s', Begun s' part' ∧ s'.chars = chars { negative, whole } ++ [c] ∧ s'.soFar = n := by
  have hnone : ∀ digits ∈ (none : Option (List (Fin 10))), digits ≠ [] := nofun
  split at hd
  · next hpoint =>
    subst hpoint
    cases hd
    refine ⟨_, .point negative hwhole, ?_, rfl⟩
    simp [chars, fractionChars, exponentChars, digitChars]
  · split at hd
    · next hletter =>
      cases hd
      exact ⟨_, .exponent negative hwhole hnone hletter, chars_exponent .., rfl⟩
    · cases hd

/-- A number goes on with another character than a digit. -/
theorem Begun.mark (h : s.Begun part) (hc : digit? c = none)
    (hd : continueNumber? part s.soFar c = some (part', n)) :
    ∃ s', Begun s' part' ∧ s'.chars = s.chars ++ [c] ∧ s'.soFar = n := by
  unfold continueNumber? at hd
  rw [hc] at hd
  cases h with
  | zero negative => exact exists_begun_of_isWhole negative (.inl rfl) hd
  | whole negative rest hne => exact exists_begun_of_isWhole negative (.inr ⟨_, rest, rfl, hne⟩) hd
  | @fraction negative whole digits hwhole hne =>
    have hfraction : ∀ digits' ∈ some digits, digits' ≠ [] := by
      rintro _ ⟨⟩
      exact hne
    dsimp only at hd
    split at hd
    · next hletter =>
      cases hd
      exact ⟨_, .exponent negative hwhole hfraction hletter, chars_exponent .., rfl⟩
    · cases hd
  | @exponent negative whole fraction letter hwhole hfraction hletter =>
    have hchars (minus : Bool) :
        chars { negative, whole, fraction, exponent := some ⟨letter, some minus, []⟩ } =
          chars { negative, whole, fraction, exponent := some ⟨letter, none, []⟩ }
            ++ [if minus then '-' else '+'] := by
      rw [chars_exponent, chars_exponent]
      cases minus <;> simp [ExponentSpelling.chars, digitChars]
    dsimp only at hd
    split at hd
    · next hplus =>
      subst hplus
      cases hd
      exact ⟨_, .exponentSign negative false hwhole hfraction hletter, hchars false, rfl⟩
    · split at hd
      · next hminus =>
        subst hminus
        cases hd
        exact ⟨_, .exponentSign negative true hwhole hfraction hletter, hchars true, rfl⟩
      · cases hd
  | exponentSign negative minus hwhole hfraction hletter => cases minus <;> cases hd
  | @exponentDigits negative sign whole digits fraction letter hwhole hfraction hletter hne =>
    cases sign with
    | none => cases hd
    | some minus => cases minus <;> cases hd
  | sign | point negative hwhole => cases hd

/-- **A number goes on with a character** as the scanner takes it. -/
theorem Begun.continue (h : s.Begun part) (hd : continueNumber? part s.soFar c = some (part', n)) :
    ∃ s', Begun s' part' ∧ s'.chars = s.chars ++ [c] ∧ s'.soFar = n := by
  cases hc : digit? c with
  | none => exact h.mark hc hd
  | some k =>
    obtain ⟨d, -, rfl⟩ := exists_digitChar hc
    exact h.digit hd

end NumberSpelling

/-! ## Strings -/

namespace Piece

/-- One more piece spells one more unit. -/
theorem Spell.concat {pieces : List Piece} {units : List Nat} {p : Piece} {u : Nat}
    (h : Spell pieces units) (hp : p.unit? = some u) : Spell (pieces ++ [p]) (units ++ [u]) :=
  List.rel_append h (.cons hp .nil)

theorem lt_of_hexDigit? {c : Char} {k : Nat} (h : Token.hexDigit? c = some k) : k < 16 := by
  unfold Token.hexDigit? at h
  split at h
  · next hrange =>
    cases h
    have hnumbers : 48 ≤ c.toNat ∧ c.toNat ≤ 57 := toNat_range hrange
    have hfirst : '0'.toNat = 48 := rfl
    omega
  split at h
  · next hrange =>
    cases h
    have hnumbers : 97 ≤ c.toNat ∧ c.toNat ≤ 102 := toNat_range hrange
    have hfirst : 'a'.toNat = 97 := rfl
    omega
  split at h
  · next hrange =>
    cases h
    have hnumbers : 65 ≤ c.toNat ∧ c.toNat ≤ 70 := toNat_range hrange
    have hfirst : 'A'.toNat = 65 := rfl
    omega
  · cases h

/-- A unit is below the number of code points. -/
theorem lt_of_unit? {p : Piece} {u : Nat} (h : p.unit? = some u) : u < 0x110000 := by
  have hchar (c : Char) : c.toNat < 0x110000 := by
    have hvalid : c.toNat < 0xD800 ∨ 0xDFFF < c.toNat ∧ c.toNat < 0x110000 := c.valid
    omega
  cases p with
  | plain c =>
    simp only [unit?] at h
    split at h
    · cases h
    · cases h
      exact hchar c
  | short letter =>
    obtain ⟨c, -, rfl⟩ := Option.map_eq_some_iff.1 h
    exact hchar c
  | hex a b c d =>
    simp only [unit?, Option.bind_eq_bind, Option.bind_eq_some_iff, Option.pure_def,
      Option.some.injEq] at h
    obtain ⟨da, ha, db, hb, dc, hc, dd, hd, rfl⟩ := h
    have hda := lt_of_hexDigit? ha
    have hdb := lt_of_hexDigit? hb
    have hdc := lt_of_hexDigit? hc
    have hdd := lt_of_hexDigit? hd
    omega

end Piece

namespace Token

theorem toNat_ofNat_of_isValidChar {k : Nat} (h : k.isValidChar) : (Char.ofNat k).toNat = k := by
  unfold Char.ofNat
  rw [dif_pos h]
  rfl

/-- A unit that is no half is that of a character, which its piece spells. -/
theorem spellChar_one {p : Piece} {u : Nat} (hp : p.unit? = some u)
    (hhalf : ¬ (isHighHalf u || isLowHalf u) = true) : Piece.SpellChar (Char.ofNat u) [p] := by
  have hlt := Piece.lt_of_unit? hp
  simp only [isHighHalf, isLowHalf, Bool.or_eq_true, Bool.and_eq_true, decide_eq_true_eq] at hhalf
  have hvalid : u.isValidChar := by
    unfold Nat.isValidChar
    omega
  refine .one ?_
  rw [toNat_ofNat_of_isValidChar hvalid]
  exact hp

/-- The units of two halves are those of a character, which their pieces spell. -/
theorem spellChar_pair {p q : Piece} {u v : Nat} (hp : p.unit? = some u) (hq : q.unit? = some v)
    (hhigh : isHighHalf u = true) (hlow : isLowHalf v = true) :
    Piece.SpellChar (Char.ofNat (0x10000 + (u - 0xD800) * 0x400 + (v - 0xDC00))) [p, q] := by
  simp only [isHighHalf, isLowHalf, Bool.and_eq_true, decide_eq_true_eq] at hhigh hlow
  generalize hc : 0x10000 + (u - 0xD800) * 0x400 + (v - 0xDC00) = c
  have hvalid : c.isValidChar := by
    unfold Nat.isValidChar
    omega
  have hchar := toNat_ofNat_of_isValidChar hvalid
  refine .pair ?_ ?_ ?_
  · omega
  · rw [hp, hchar, Option.some_inj]
    omega
  · rw [hq, hchar, Option.some_inj]
    omega

/-- **Pieces whose units spell characters spell these**, each one as one piece or as two. -/
theorem exists_spellChar {units : List Nat} {cs : List Char} (hspell : spell units = some cs)
    {pieces : List Piece} (h : Piece.Spell pieces units) :
    ∃ groups, groups.flatten = pieces ∧ List.Forall₂ Piece.SpellChar cs groups := by
  induction units using spell.induct generalizing pieces cs with
  | case1 =>
    cases h
    cases hspell
    exact ⟨[], rfl, .nil⟩
  | case2 u hhalf =>
    rw [spell, if_pos hhalf] at hspell
    cases hspell
  | case3 u hhalf =>
    rw [spell, if_neg hhalf] at hspell
    cases hspell
    obtain _ | ⟨hp, hrest⟩ := h
    cases hrest
    exact ⟨[[_]], rfl, .cons (spellChar_one hp hhalf) .nil⟩
  | case4 u v rest hhigh hlow ih =>
    rw [spell_pair hhigh hlow] at hspell
    obtain ⟨cs, hcs, rfl⟩ := Option.map_eq_some_iff.1 hspell
    obtain _ | ⟨hp, hrest⟩ := h
    obtain _ | ⟨hq, hrest⟩ := hrest
    obtain ⟨groups, rfl, hgroups⟩ := ih hcs hrest
    exact ⟨[_, _] :: groups, rfl, .cons (spellChar_pair hp hq hhigh hlow) hgroups⟩
  | case5 u v rest hhigh hlow =>
    rw [spell, if_pos hhigh, if_neg hlow] at hspell
    cases hspell
  | case6 u v rest hhigh hlow =>
    rw [spell, if_neg hhigh, if_pos hlow] at hspell
    cases hspell
  | case7 u v rest hhigh hlow ih =>
    rw [spell, if_neg hhigh, if_neg hlow] at hspell
    obtain ⟨cs, hcs, rfl⟩ := Option.map_eq_some_iff.1 hspell
    obtain _ | ⟨hp, hrest⟩ := h
    obtain ⟨groups, rfl, hgroups⟩ := ih hcs hrest
    have hhalf : ¬ (isHighHalf u || isLowHalf u) = true := by
      rw [Bool.or_eq_true, not_or]
      exact ⟨hhigh, hlow⟩
    exact ⟨[_] :: groups, rfl, .cons (spellChar_one hp hhalf) hgroups⟩

/-- **A string is spelled by the pieces of its units**, whether they name a text or not. -/
theorem spelled_quotedPieces {pieces : List Piece} {units : List Nat}
    (h : Piece.Spell pieces units) :
    Spelled (.text ((spell units).map String.ofList)) (quotedPieces pieces) := by
  cases hspell : spell units with
  | none => exact .textless h hspell
  | some cs =>
    obtain ⟨groups, rfl, hgroups⟩ := exists_spellChar hspell h
    rw [← String.toList_ofList (l := cs)] at hgroups
    exact .text hgroups

/-! ## Texts -/

variable {ts : List Token} {t : Token} {cs chars : List Char} {c : Char}

/-- A text goes on with a blank. -/
theorem Spells.blank (h : Spells ts cs) (hc : isBlank c = true) : Spells ts (cs ++ [c]) := by
  induction h with
  | nil hblanks => exact .nil (List.forall_mem_append.2 ⟨hblanks, List.forall_mem_singleton.2 hc⟩)
  | cons hblanks ht _ ih =>
    rw [List.append_assoc]
    exact .cons hblanks ht ih

/-- A text goes on with a token. -/
theorem Spells.concat (h : Spells ts cs) (ht : Spelled t chars) :
    Spells (ts ++ [t]) (cs ++ chars) := by
  induction h with
  | @nil blanks hblanks =>
    have hnone : ∀ c ∈ ([] : List Char), isBlank c = true := nofun
    have hone := Spells.cons hblanks ht (.nil hnone)
    rwa [List.append_nil] at hone
  | cons hblanks ht' _ ih =>
    rw [List.append_assoc]
    exact .cons hblanks ht' ih

/-! ## The scanner -/

/-- The value of hexadecimal digits. -/
def hexValue? (digits : List Char) : Option Nat :=
  digits.foldlM (fun value c => (hexDigit? c).map fun d => value * 16 + d) 0

/-- **What stands behind the tokens** when the scanner is in the middle of something: the
characters of a token that is not complete. -/
inductive Pending : Mode → List Char → Prop where
  | between : Pending .between []
  | word {missing chars : List Char} {t : Token} (h : Spelled t (chars ++ missing)) :
    Pending (.word missing t) chars
  | number {s : NumberSpelling} {part : NumberPart} (h : s.Begun part) :
    Pending (.number part s.soFar) s.chars
  | text {units : List Nat} {pieces : List Piece} (h : Piece.Spell pieces units.reverse) :
    Pending (.text units) ('"' :: pieces.flatMap Piece.chars)
  | escape {units : List Nat} {pieces : List Piece} (h : Piece.Spell pieces units.reverse) :
    Pending (.escape units) ('"' :: pieces.flatMap Piece.chars ++ ['\\'])
  | hex {units : List Nat} {pieces : List Piece} {digits : List Char} {missing value : Nat}
    (h : Piece.Spell pieces units.reverse) (hvalue : hexValue? digits = some value)
    (hlength : digits.length + missing = 4) (hmissing : 0 < missing) :
    Pending (.hex units missing value)
      ('"' :: pieces.flatMap Piece.chars ++ '\\' :: 'u' :: digits)

/-- A string goes on with a piece. -/
theorem Pending.piece {units : List Nat} {pieces : List Piece}
    (h : Piece.Spell pieces units.reverse) {p : Piece} {u : Nat} (hp : p.unit? = some u) :
    Pending (.text (u :: units)) ('"' :: pieces.flatMap Piece.chars ++ p.chars) := by
  have hmore := h.concat hp
  rw [← List.reverse_cons] at hmore
  have hpending := Pending.text hmore
  rwa [List.flatMap_append, List.flatMap_singleton, ← List.cons_append] at hpending

/-- The four digits of an escape spell their value. -/
theorem unit?_hex {digits : List Char} {value : Nat} (hvalue : hexValue? digits = some value)
    (hlength : digits.length = 4) :
    ∃ p : Piece, p.chars = '\\' :: 'u' :: digits ∧ p.unit? = some value := by
  match digits with
  | [a, b, c, d] =>
    simp only [hexValue?, List.foldlM_cons, List.foldlM_nil, Option.bind_eq_bind,
      Option.bind_eq_some_iff, Option.map_eq_some_iff, Option.pure_def, Option.some.injEq,
      exists_exists_and_eq_and, exists_eq_right, Nat.zero_mul, Nat.zero_add] at hvalue
    obtain ⟨da, ha, db, hb, dc, hc, dd, hd, rfl⟩ := hvalue
    refine ⟨.hex a b c d, rfl, ?_⟩
    simp only [Piece.unit?, ha, hb, hc, hd, Option.bind_eq_bind, Option.bind_some, Option.pure_def]

namespace Scanner

variable {s s' : Scanner}

/-- **What the scanner took**: a text that spells the tokens found, and what stands behind them. -/
def Took (s : Scanner) (cs : List Char) : Prop :=
  ∃ front chars, cs = front ++ chars ∧ Spells s.found.reverse front ∧ Pending s.mode chars

theorem took_start : ({} : Scanner).Took [] := ⟨[], [], rfl, .nil nofun, .between⟩

/-- A token is complete. -/
theorem Took.emit (h : Spells s.found.reverse cs) (ht : Spelled t chars) :
    (s.emit t).Took (cs ++ chars) := by
  refine ⟨_, [], (List.append_nil _).symm, ?_, .between⟩
  show Spells (t :: s.found).reverse (cs ++ chars)
  rw [List.reverse_cons]
  exact h.concat ht

/-- A token begins. -/
theorem took_mode {found : List Token} {mode : Mode} (h : Spells found.reverse cs)
    (hmode : Pending mode chars) : Took ⟨found, mode⟩ (cs ++ chars) :=
  ⟨cs, chars, rfl, h, hmode⟩

/-- A character between tokens is a blank, or it is a token, or it begins one. -/
theorem Took.stepBetween {found : List Token} (h : Spells found.reverse cs)
    (hstep : Scanner.stepBetween ⟨found, .between⟩ c = some s') : s'.Took (cs ++ [c]) := by
  have hempty : Piece.Spell [] ([] : List Nat).reverse := .nil
  unfold Scanner.stepBetween at hstep
  split at hstep
  · next hblank =>
    cases hstep
    exact ⟨_, [], (List.append_nil _).symm, h.blank hblank, .between⟩
  split at hstep
  · cases hstep; exact .emit h .openArray
  · cases hstep; exact .emit h .closeArray
  · cases hstep; exact .emit h .openObject
  · cases hstep; exact .emit h .closeObject
  · cases hstep; exact .emit h .comma
  · cases hstep; exact .emit h .colon
  · cases hstep; exact took_mode h (.text hempty)
  · cases hstep; exact took_mode h (.word .null)
  · cases hstep; exact took_mode h (.word .true)
  · cases hstep; exact took_mode h (.word .false)
  · cases hstep; exact took_mode h (.number .sign)
  · cases hstep; exact took_mode h (.number (.zero false))
  · next hzero =>
    obtain ⟨k, hk, rfl⟩ := Option.map_eq_some_iff.1 hstep
    obtain ⟨d, rfl, rfl⟩ := exists_digitChar hk
    have hne : d ≠ 0 := by
      rintro rfl
      exact hzero rfl
    have hpending := Pending.number (.whole false [] hne)
    have hwhole : decimalValue [d] = d.val := Nat.zero_add _
    rw [NumberSpelling.soFar, hwhole] at hpending
    exact took_mode h hpending

/-- A character of a word. -/
theorem Took.word {found : List Token} {missing : List Char} (h : Spells found.reverse cs)
    (ht : Spelled t (chars ++ missing))
    (hstep : Scanner.step ⟨found, .word missing t⟩ c = some s') :
    s'.Took (cs ++ (chars ++ [c])) := by
  match missing with
  | [] => cases hstep
  | [last] =>
    unfold Scanner.step at hstep
    dsimp only at hstep
    split at hstep
    · next heq =>
      cases hstep
      subst heq
      exact .emit h ht
    · cases hstep
  | next :: last :: missing =>
    unfold Scanner.step at hstep
    dsimp only at hstep
    split at hstep
    · next heq =>
      cases hstep
      subst heq
      refine took_mode h (.word ?_)
      rwa [List.append_assoc]
    · cases hstep

/-- A character that goes on with a number, or stands behind it. -/
theorem Took.number {found : List Token} {n : NumberSpelling} {part : NumberPart}
    (h : Spells found.reverse cs) (hn : n.Begun part)
    (hstep : Scanner.step ⟨found, .number part n.soFar⟩ c = some s') :
    s'.Took (cs ++ (n.chars ++ [c])) := by
  unfold Scanner.step at hstep
  dsimp only at hstep
  split at hstep
  · next part' n' hnext =>
    cases hstep
    obtain ⟨n', hn', hchars, rfl⟩ := hn.continue hnext
    rw [← hchars]
    exact took_mode h (.number hn')
  · split at hstep
    · next hcomplete =>
      have hspelled := Spelled.number (hn.wellFormed hcomplete)
      rw [← (hn.wellFormed hcomplete).soFar_eq] at hspelled
      have hfound : Spells (Token.number n.soFar :: found).reverse (cs ++ n.chars) := by
        rw [List.reverse_cons]
        exact h.concat hspelled
      rw [← List.append_assoc]
      exact .stepBetween hfound hstep
    · cases hstep

/-- A character in a string. -/
theorem Took.text {found : List Token} {units : List Nat} {pieces : List Piece}
    (h : Spells found.reverse cs) (hpieces : Piece.Spell pieces units.reverse)
    (hstep : Scanner.step ⟨found, .text units⟩ c = some s') :
    s'.Took (cs ++ (('"' :: pieces.flatMap Piece.chars) ++ [c])) := by
  unfold Scanner.step at hstep
  dsimp only at hstep
  split at hstep
  · next hquote =>
    subst hquote
    cases hstep
    exact .emit h (spelled_quotedPieces hpieces)
  split at hstep
  · next hbackslash =>
    subst hbackslash
    cases hstep
    exact took_mode h (.escape hpieces)
  split at hstep
  · cases hstep
  · next hquote hbackslash hcontrol =>
    cases hstep
    have hplain : (Piece.plain c).unit? = some c.toNat := if_neg (by tauto)
    exact took_mode h (.piece hpieces hplain)

/-- A character after a backslash. -/
theorem Took.escape {found : List Token} {units : List Nat} {pieces : List Piece}
    (h : Spells found.reverse cs) (hpieces : Piece.Spell pieces units.reverse)
    (hstep : Scanner.step ⟨found, .escape units⟩ c = some s') :
    s'.Took (cs ++ (('"' :: pieces.flatMap Piece.chars ++ ['\\']) ++ [c])) := by
  unfold Scanner.step at hstep
  dsimp only at hstep
  rw [List.append_assoc (_ :: _)]
  split at hstep
  · next hhex =>
    subst hhex
    cases hstep
    have hvalue : hexValue? [] = some 0 := rfl
    exact took_mode h (.hex hpieces hvalue rfl (by decide))
  · obtain ⟨e, he, rfl⟩ := Option.map_eq_some_iff.1 hstep
    have hshort : (Piece.short c).unit? = some e.toNat := congrArg (Option.map Char.toNat) he
    exact took_mode h (.piece hpieces hshort)

/-- A digit of an escape. -/
theorem Took.hex {found : List Token} {units : List Nat} {pieces : List Piece}
    {digits : List Char} {missing value : Nat} (h : Spells found.reverse cs)
    (hpieces : Piece.Spell pieces units.reverse) (hvalue : hexValue? digits = some value)
    (hlength : digits.length + missing = 4) (hmissing : 0 < missing)
    (hstep : Scanner.step ⟨found, .hex units missing value⟩ c = some s') :
    s'.Took (cs ++ (('"' :: pieces.flatMap Piece.chars ++ '\\' :: 'u' :: digits) ++ [c])) := by
  unfold Scanner.step at hstep
  obtain ⟨d, hd, hs'⟩ := Option.map_eq_some_iff.1 hstep
  have hmore : hexValue? (digits ++ [c]) = some (value * 16 + d) := by
    unfold hexValue? at hvalue ⊢
    rw [List.foldlM_append, hvalue]
    simp [hd]
  have hlength' : (digits ++ [c]).length + (missing - 1) = 4 := by
    rw [List.length_append, List.length_singleton]
    omega
  have hchars : ('"' :: pieces.flatMap Piece.chars ++ '\\' :: 'u' :: digits) ++ [c] =
      '"' :: pieces.flatMap Piece.chars ++ '\\' :: 'u' :: (digits ++ [c]) :=
    List.append_assoc ..
  rw [hchars]
  match missing with
  | 1 =>
    cases hs'
    obtain ⟨p, hp, hunit⟩ := unit?_hex hmore hlength'
    rw [← hp]
    exact took_mode h (.piece hpieces hunit)
  | missing + 2 =>
    cases hs'
    exact took_mode h (.hex hpieces hmore hlength' (Nat.succ_pos missing))

/-- **Every step takes its character.** -/
theorem Took.step (h : s.Took cs) (hstep : s.step c = some s') : s'.Took (cs ++ [c]) := by
  obtain ⟨found, mode⟩ := s
  obtain ⟨front, chars, rfl, hfront, hmode⟩ := h
  rw [List.append_assoc]
  cases hmode with
  | between => exact .stepBetween hfront hstep
  | word ht => exact .word hfront ht hstep
  | number hn => exact .number hfront hn hstep
  | text hpieces => exact .text hfront hpieces hstep
  | escape hpieces => exact .escape hfront hpieces hstep
  | hex hpieces hvalue hlength hmissing =>
    exact .hex hfront hpieces hvalue hlength hmissing hstep

/-- Every run takes its characters. -/
theorem Took.run (h : s.Took cs) (hrun : s.run chars = some s') : s'.Took (cs ++ chars) := by
  induction chars generalizing s cs with
  | nil =>
    cases hrun
    rwa [List.append_nil]
  | cons c chars ih =>
    rw [run_cons] at hrun
    obtain ⟨s₁, hstep, hrest⟩ := Option.bind_eq_some_iff.1 hrun
    have htook := ih (h.step hstep) hrest
    rwa [List.append_assoc, List.singleton_append] at htook

/-- Where the scanner may stop, what it took is spelled. -/
theorem Took.finish (h : s.Took cs) (hfinish : s.finish = some ts) : Spells ts cs := by
  obtain ⟨found, mode⟩ := s
  obtain ⟨front, chars, rfl, hfront, hmode⟩ := h
  cases hmode with
  | between =>
    cases hfinish
    rwa [List.append_nil]
  | @number n part hn =>
    unfold Scanner.finish at hfinish
    dsimp only at hfinish
    split at hfinish
    · next hcomplete =>
      cases hfinish
      have hwell := hn.wellFormed hcomplete
      rw [List.reverse_cons, hwell.soFar_eq]
      exact hfront.concat (.number hwell)
    · cases hfinish
  | word | text | escape | hex => cases hfinish

end Scanner

/-- **A text spells the tokens that are found in it.** -/
theorem spells_of_scan (h : scan cs = some ts) : Spells ts cs := by
  obtain ⟨s, hrun, hfinish⟩ := Option.bind_eq_some_iff.1 h
  exact (Scanner.took_start.run hrun).finish hfinish

end Token

end Compositor.Json
