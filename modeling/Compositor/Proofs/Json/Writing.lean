import Compositor.Proofs.Json.Reading
import Compositor.Proofs.Json.Records

/-!
# What is written is read back

A value is written token by token with nothing between. So it is read back if each of its tokens
is spelled as it is written, which is so of everything but numbers that nobody writes: of
integers it is so by their decimal digits (`Token.Spelled.int`).

Things that are written as values and read from them *survive* if each thing is read back from
what is written of it. Then reading any text and writing what was read gives a text that this
leaves as it is.

Main statements: `Value.parse?_compact` and `survives_of_decode`.
-/

namespace Compositor.Json

/-! ## Integers -/

/-- **The decimal digits of a number** spell it, and there are no needless zeros. -/
theorem exists_digits (n : Nat) : ∃ digits : List (Fin 10),
    digitChars digits = decimal n ∧ decimalValue digits = n ∧ NumberSpelling.IsWhole digits := by
  induction n using Nat.strong_induction_on with
  | _ n ih =>
    by_cases hlt : n < 10
    · refine ⟨[⟨n, hlt⟩], (Nat.toDigits_of_lt_base hlt).symm, Nat.zero_add n, ?_⟩
      by_cases hzero : n = 0
      · subst hzero
        exact .inl rfl
      · exact .inr ⟨_, [], rfl, fun heq => hzero (congrArg Fin.val heq)⟩
    · have hge : 10 ≤ n := Nat.le_of_not_lt hlt
      obtain ⟨digits, hchars, hvalue, hwhole⟩ := ih (n / 10) (by omega)
      refine ⟨digits ++ [⟨n % 10, Nat.mod_lt n (by decide)⟩], ?_, ?_, ?_⟩
      · rw [digitChars_concat, hchars]
        exact (Nat.toDigits_of_base_le (by decide) hge).symm
      · rw [decimalValue_concat, hvalue]
        exact Nat.div_add_mod' n 10
      · -- The digits of a tenth of the number do not begin with a zero.
        obtain rfl | ⟨d, rest, rfl, hd⟩ := hwhole
        · have hzero : n / 10 = 0 := hvalue.symm
          omega
        · exact .inr ⟨d, _, rfl, hd⟩

/-- **An integer is spelled as it is written.** -/
theorem Token.Spelled.int (i : Int) :
    Token.Spelled (.number (.ofInt i)) (Token.number (.ofInt i)).chars := by
  obtain ⟨whole, hchars, hvalue, hwhole⟩ := exists_digits i.natAbs
  have hspelled := Token.Spelled.number (s := { negative := decide (i < 0), whole })
    ⟨hwhole, nofun, nofun⟩
  have hnumber : NumberSpelling.number { negative := decide (i < 0), whole } = .ofInt i := by
    unfold NumberSpelling.number Number.ofInt
    rw [hvalue]
    rfl
  have hwritten : NumberSpelling.chars { negative := decide (i < 0), whole } =
      (Token.number (.ofInt i)).chars := by
    unfold NumberSpelling.chars Token.chars Number.chars Number.ofInt
    rw [hchars]
    rfl
  rwa [hnumber, hwritten] at hspelled

/-- An integer is written as it is shown. -/
theorem Number.chars_ofInt (i : Int) : (ofInt i).chars = (toString i).toList := by
  unfold chars ofInt
  rw [Int.toString_eq_repr]
  cases i <;> simp [Int.repr, decimal]

/-! ## Values -/

/-- Tokens that are written one after the other with nothing between. -/
theorem Token.spells_chars {ts : List Token} (h : ∀ t ∈ ts, t.Spelled t.chars) :
    Spells ts (ts.flatMap Token.chars) := by
  induction ts with
  | nil => exact .nil nofun
  | cons t ts ih =>
    obtain ⟨ht, hts⟩ := List.forall_mem_cons.1 h
    have hblanks : ∀ c ∈ ([] : List Char), isBlank c = true := nofun
    exact .cons hblanks ht (ih hts)

namespace Value

/-- Every token is spelled as it is written. -/
def IsPlain (v : Value) : Prop := ∀ t ∈ v.tokens, t.Spelled t.chars

theorem isPlain_int (i : Int) : (int i).IsPlain := List.forall_mem_singleton.2 (.int i)

theorem isPlain_str (s : String) : (str s).IsPlain := List.forall_mem_singleton.2 (.quoted s)

theorem spelled_memberTokens {members : List (String × Value)}
    (h : ∀ m ∈ members, m.2.IsPlain) :
    ∀ t ∈ memberTokens (named members), t.Spelled t.chars := by
  induction members with
  | nil => exact nofun
  | cons m rest ih =>
    obtain ⟨hm, hrest⟩ := List.forall_mem_cons.1 h
    have hfirst : ∀ t ∈ Token.text (some m.1) :: .colon :: m.2.tokens, t.Spelled t.chars :=
      List.forall_mem_cons.2 ⟨.quoted m.1, List.forall_mem_cons.2 ⟨.colon, hm⟩⟩
    cases rest with
    | nil => exact (memberTokens_singleton (some m.1) m.2).symm ▸ hfirst
    | cons m' rest =>
      have htokens := memberTokens_cons_cons (some m.1) m.2 (some m'.1, m'.2) (named rest)
      refine htokens.symm ▸ List.forall_mem_append.2 ⟨hfirst, ?_⟩
      exact List.forall_mem_cons.2 ⟨.comma, ih hrest⟩

/-- An object of plain values is plain. -/
theorem isPlain_ofFields {members : List (String × Value)} (h : ∀ m ∈ members, m.2.IsPlain) :
    (ofFields members).IsPlain := by
  have hclose : ∀ t ∈ [Token.closeObject], t.Spelled t.chars :=
    List.forall_mem_singleton.2 .closeObject
  exact List.forall_mem_cons.2 ⟨.openObject,
    List.forall_mem_append.2 ⟨spelled_memberTokens h, hclose⟩⟩

/-- **What is written in the compact layout is read back.** -/
theorem parse?_compact {v : Value} (h : v.IsPlain) : parse? v.compact = some v := by
  rw [parse?_eq_some, compact, String.toList_ofList]
  exact Token.spells_chars h

end Value

/-! ## Things -/

section Survival

variable {α : Type}

/-- What is read from a text. -/
def read? (decode : Value → Option α) (text : String) : Option α := (Value.parse? text).bind decode

/-- The compact text of what is read from a text. -/
def rewrite? (decode : Value → Option α) (encode : α → Value) (text : String) : Option String :=
  (read? decode text).map fun a => (encode a).compact

/-- **Things survive JSON**, where `Describes` tells which values describe a thing. -/
structure Survives (decode : Value → Option α) (encode : α → Value)
    (Describes : α → Value → Prop) : Prop where
  /-- What is written of a thing is read as the thing. -/
  reads_written (a : α) : read? decode (encode a).compact = some a
  /-- A text is read as a thing exactly if it spells a value that describes it. -/
  reads_iff {text : String} {a : α} :
    read? decode text = some a ↔ ∃ v, Token.Spells v.tokens text.toList ∧ Describes a v
  /-- A text that is read as a thing is rewritten as what is written of the thing. -/
  rewrites {text : String} {a : α} (h : read? decode text = some a) :
    rewrite? decode encode text = some (encode a).compact
  /-- A text that was rewritten is rewritten as itself. -/
  idempotent {text written : String} (h : rewrite? decode encode text = some written) :
    rewrite? decode encode written = some written

variable {decode : Value → Option α} {encode : α → Value} {Describes : α → Value → Prop}

/-- **Things survive** if they are decoded from the values that describe them, and what is encoded
of them is such a value and plain. -/
theorem survives_of_decode (hdecode : ∀ v a, decode v = some a ↔ Describes a v)
    (hencode : ∀ a, Describes a (encode a))
    (hplain : ∀ a, (encode a).IsPlain) :
    Survives decode encode Describes := by
  have hwritten (a : α) : read? decode (encode a).compact = some a := by
    rw [read?, Value.parse?_compact (hplain a), Option.bind_some, hdecode]
    exact hencode a
  refine ⟨hwritten, fun {text a} => ?_, fun {text a} h => ?_, fun {text written} h => ?_⟩
  · simp only [read?, Option.bind_eq_some_iff, Value.parse?_eq_some, hdecode]
  · rw [rewrite?, h]
    rfl
  · obtain ⟨a, -, rfl⟩ := Option.map_eq_some_iff.1 h
    rw [rewrite?, hwritten]
    rfl

end Survival

end Compositor.Json
