import Mathlib.Data.List.Chain
import Compositor.Json.Reader
import Compositor.Proofs.Json.Spelling

/-!
# What a text means

A text that spells the tokens of a value means that value: its tokens are found in it, and the
value is read from them. Only two numbers must not follow each other, since nothing has to stand
between tokens, and among the tokens of a value they never do.

Main statements: `Token.scan_of_spells` and `Value.parse?_of_spells`.
-/

namespace Compositor.Json

namespace Token

/-! ## From characters to tokens -/

/-- A character at which a number has ended, wherever it may end. -/
def EndsNumber (c : Char) : Prop := digit? c = none ∧ c ≠ '.' ∧ c ≠ 'e' ∧ c ≠ 'E'

instance (c : Char) : Decidable (EndsNumber c) := inferInstanceAs (Decidable (_ ∧ _))

theorem endsNumber_of_isBlank {c : Char} (h : isBlank c = true) : EndsNumber c := by
  simp only [isBlank, Bool.or_eq_true, beq_iff_eq] at h
  rcases h with ((rfl | rfl) | rfl) | rfl <;> decide

namespace Scanner

variable {s : Scanner} {ts : List Token}

/-- A scanner that may stop between tokens holds those found. -/
theorem eq_of_between (h : s.finish = some ts) (hmode : s.mode = .between) :
    s = ⟨ts.reverse, .between⟩ := by
  obtain ⟨found, mode⟩ := s
  obtain rfl : mode = .between := hmode
  cases h
  rw [List.reverse_reverse]

/-- **A scanner that may stop goes on as one that stands between tokens**, unless a number goes
on. -/
theorem step_of_finish (h : s.finish = some ts) {c : Char} (hc : EndsNumber c) :
    s.step c = step ⟨ts.reverse, .between⟩ c := by
  obtain ⟨found, mode⟩ := s
  obtain ⟨hdigit, hpoint, he, hE⟩ := hc
  cases mode with
  | between =>
    rw [eq_of_between h rfl]
  | number part n =>
    unfold finish at h
    dsimp only at h
    split at h
    · next hcomplete =>
      cases h
      have hend : continueNumber? part n c = none := by
        unfold continueNumber?
        rw [hdigit]
        have hletter : ¬ (c = 'e' ∨ c = 'E') := not_or.2 ⟨he, hE⟩
        cases part with
        | zero => exact (if_neg hpoint).trans (if_neg hletter)
        | whole => exact (if_neg hpoint).trans (if_neg hletter)
        | fraction => exact if_neg hletter
        | exponentDigits negative => cases negative <;> rfl
        | sign => cases hcomplete
        | point => cases hcomplete
        | exponent => cases hcomplete
        | exponentSign negative => cases hcomplete
      simp only [step, hend, hcomplete, if_true, emit, List.reverse_reverse]
    · cases h
  | word missing t => cases h
  | text units => cases h
  | escape units => cases h
  | hex units missing value => cases h

theorem run_of_finish (h : s.finish = some ts) {c : Char} (hc : EndsNumber c) (cs : List Char) :
    s.run (c :: cs) = run ⟨ts.reverse, .between⟩ (c :: cs) := by
  rw [run_cons, run_cons, step_of_finish h hc]

/-- Blanks change nothing but that they end a number. -/
theorem run_blanks (h : s.finish = some ts) {blanks : List Char}
    (hblanks : ∀ c ∈ blanks, isBlank c = true) :
    ∃ s', s.run blanks = some s' ∧ s'.finish = some ts ∧
      (s.mode = .between → s'.mode = .between) := by
  induction blanks generalizing s with
  | nil => exact ⟨s, rfl, h, id⟩
  | cons c rest ih =>
    have hc := hblanks c List.mem_cons_self
    have hstep : s.step c = some ⟨ts.reverse, .between⟩ := by
      rw [step_of_finish h (endsNumber_of_isBlank hc)]
      simp only [step, stepBetween, hc, if_true]
    have hfinish : finish ⟨ts.reverse, .between⟩ = some ts := congrArg some ts.reverse_reverse
    obtain ⟨s', hrun, hs', hmode⟩ := ih hfinish fun c hc => hblanks c (List.mem_cons_of_mem _ hc)
    refine ⟨s', ?_, hs', fun _ => hmode rfl⟩
    rw [run_cons, hstep]
    exact hrun

/-- **A token that is spelled is found.** -/
theorem run_spelled (h : s.finish = some ts) {t : Token} {chars : List Char}
    (ht : t.Spelled chars) (hnumber : t.isNumber = true → s.mode = .between) :
    ∃ s', s.run chars = some s' ∧ s'.finish = some (ts ++ [t]) ∧
      (t.isNumber = false → s'.mode = .between) := by
  -- What is found behind a first character that ends a number.
  have hfound {c : Char} {cs : List Char} {t : Token} (hc : EndsNumber c)
      (hrun : run ⟨ts.reverse, .between⟩ (c :: cs) = some ⟨t :: ts.reverse, .between⟩) :
      ∃ s', s.run (c :: cs) = some s' ∧ s'.finish = some (ts ++ [t]) ∧
        (t.isNumber = false → s'.mode = .between) := by
    refine ⟨_, (run_of_finish h hc cs).trans hrun, ?_, fun _ => rfl⟩
    simp [finish]
  cases ht with
  | openArray => exact hfound (by decide) rfl
  | closeArray => exact hfound (by decide) rfl
  | openObject => exact hfound (by decide) rfl
  | closeObject => exact hfound (by decide) rfl
  | comma => exact hfound (by decide) rfl
  | colon => exact hfound (by decide) rfl
  | null => exact hfound (by decide) rfl
  | true => exact hfound (by decide) rfl
  | false => exact hfound (by decide) rfl
  | number hs =>
    obtain ⟨part, hcomplete, hrun⟩ := run_numberSpelling ts.reverse hs
    rw [eq_of_between h (hnumber rfl)]
    refine ⟨_, hrun, ?_, fun hnot => by cases hnot⟩
    simp [finish, hcomplete]
  | @text text groups hgroups =>
    obtain ⟨units, hunits, hspell⟩ := spell_of_spellChar hgroups
    have hrun := run_quotedPieces ts.reverse hunits
    rw [hspell, Option.map_some, String.ofList_toList] at hrun
    exact hfound (by decide) hrun
  | textless hunits hhalved =>
    have hrun := run_quotedPieces ts.reverse hunits
    rw [hhalved, Option.map_none] at hrun
    exact hfound (by decide) hrun

/-- Scanning a text that spells tokens, behind tokens that were found before. -/
theorem run_spells {us : List Token} {cs : List Char} (hspells : Spells us cs)
    (h : s.finish = some ts) (hapart : Apart us)
    (hfirst : ∀ t ∈ us.head?, t.isNumber = true → s.mode = .between) :
    ∃ s', s.run cs = some s' ∧ s'.finish = some (ts ++ us) := by
  induction hspells generalizing s ts with
  | nil hblanks =>
    obtain ⟨s', hrun, hs', -⟩ := run_blanks h hblanks
    exact ⟨s', hrun, by rw [hs', List.append_nil]⟩
  | @cons blanks chars rest t us hblanks ht _ ih =>
    obtain ⟨s₁, hrun₁, hs₁, hmode₁⟩ := run_blanks h hblanks
    obtain ⟨s₂, hrun₂, hs₂, hmode₂⟩ := run_spelled hs₁ ht fun hnumber =>
      hmode₁ (hfirst t rfl hnumber)
    have hnext : ∀ t' ∈ us.head?, t'.isNumber = true → s₂.mode = .between := by
      intro t' ht' hnumber
      refine hmode₂ (Bool.eq_false_iff.2 fun hnumber' => ?_)
      exact (List.isChain_cons.1 hapart).1 t' ht' ⟨hnumber', hnumber⟩
    obtain ⟨s', hrun, hs'⟩ := ih hs₂ hapart.tail hnext
    refine ⟨s', ?_, by rw [hs', List.append_assoc, List.singleton_append]⟩
    rw [List.append_assoc, run_append, hrun₁, Option.bind_some, run_append, hrun₂, Option.bind_some,
      hrun]

end Scanner

/-- **The tokens that a text spells are found in it.** -/
theorem scan_of_spells {ts : List Token} {cs : List Char} (h : Spells ts cs) (hapart : Apart ts) :
    scan cs = some ts := by
  have hstart : ({} : Scanner).finish = some [] := rfl
  obtain ⟨s, hrun, hs⟩ := Scanner.run_spells h hstart hapart fun _ _ _ => rfl
  unfold scan
  rw [hrun]
  exact hs

theorem Apart.cons {t : Token} {ts : List Token} (ht : t.isNumber = false) (h : Apart ts) :
    Apart (t :: ts) :=
  List.isChain_cons.2 ⟨fun _ _ hboth => Bool.false_ne_true (ht.symm.trans hboth.1), h⟩

/-- Tokens that begin with another one than a number may stand behind any others. -/
theorem Apart.append {ts us : List Token} {u : Token} (h : Apart ts) (hu : u.isNumber = false)
    (hus : Apart (u :: us)) : Apart (ts ++ u :: us) := by
  refine List.isChain_append.2 ⟨h, hus, fun _ _ u' hu' hboth => ?_⟩
  cases hu'
  exact Bool.false_ne_true (hu.symm.trans hboth.2)

end Token

/-! ## From tokens to a value -/

namespace Reader

theorem run_cons (r : Reader) (t : Token) (ts : List Token) :
    r.run (t :: ts) = (r.step t).bind fun r' => r'.run ts :=
  List.foldlM_cons

/-- Before the first item of an array a value is read as behind a comma. -/
theorem step_itemOrClose {t : Token} (ht : t ≠ .closeArray) (stack : List Open) :
    step ⟨.itemOrClose, stack⟩ t = step ⟨.value, .array [] :: stack⟩ t := by
  cases t with
  | closeArray => exact absurd rfl ht
  | _ => rfl

end Reader

namespace Value

open Token

/-- No value begins with a closing bracket. -/
theorem exists_tokens_eq (v : Value) : ∃ t ts, v.tokens = t :: ts ∧ t ≠ .closeArray := by
  cases v <;> exact ⟨_, _, rfl, by simp⟩

theorem exists_itemTokens_eq (v : Value) (rest : List Value) :
    ∃ t ts, itemTokens (v :: rest) = t :: ts ∧ t ≠ .closeArray := by
  obtain ⟨t, ts, ht, hclose⟩ := exists_tokens_eq v
  cases rest with
  | nil => exact ⟨t, ts, ht, hclose⟩
  | cons w rest =>
    exact ⟨t, ts ++ .comma :: itemTokens (w :: rest), by simp [itemTokens, ht], hclose⟩

/-- What follows an item of an array. -/
theorem itemTokens_cons_cons (v w : Value) (rest : List Value) :
    itemTokens (v :: w :: rest) = v.tokens ++ .comma :: itemTokens (w :: rest) := by
  simp [itemTokens]

theorem memberTokens_singleton (name : Option String) (v : Value) :
    memberTokens [(name, v)] = .text name :: .colon :: v.tokens := by
  simp [memberTokens]

/-- What follows a member of an object. -/
theorem memberTokens_cons_cons (name : Option String) (v : Value) (m : Option String × Value)
    (rest : List (Option String × Value)) :
    memberTokens ((name, v) :: m :: rest) =
      .text name :: .colon :: v.tokens ++ .comma :: memberTokens (m :: rest) := by
  simp [memberTokens]

theorem exists_memberTokens_eq (name : Option String) (v : Value)
    (rest : List (Option String × Value)) :
    ∃ ts, memberTokens ((name, v) :: rest) = .text name :: ts := by
  cases rest with
  | nil => exact ⟨_, memberTokens_singleton name v⟩
  | cons m rest => exact ⟨_, memberTokens_cons_cons name v m rest⟩

theorem run_member (name : Option String) (members : List (Option String × Value))
    (stack : List Open) (ts us : List Token) :
    Reader.run ⟨.name members, stack⟩ (.text name :: .colon :: ts ++ us) =
      Reader.run ⟨.value, .object members name :: stack⟩ (ts ++ us) :=
  rfl

mutual

/-- **The tokens of a value are read as the value.** -/
theorem run_tokens : ∀ (v : Value) (stack : List Open),
    Reader.run ⟨.value, stack⟩ v.tokens = some ⟨.after v, stack⟩
  | .null, _ => rfl
  | .bool _, _ => rfl
  | .number _, _ => rfl
  | .text _, _ => rfl
  | .array items, stack => by
    have hitems := run_itemTokens items [] stack
    cases items with
    | nil => rfl
    | cons v rest =>
      -- The first item is read as one behind a comma.
      obtain ⟨t, ts, ht, hclose⟩ := exists_itemTokens_eq v rest
      have hopen : Reader.step ⟨.value, stack⟩ .openArray = some ⟨.itemOrClose, stack⟩ := rfl
      rw [ht, List.cons_append, Reader.run_cons, ← Reader.step_itemOrClose hclose] at hitems
      rw [tokens, ht, List.cons_append, Reader.run_cons, hopen, Option.bind_some, List.cons_append,
        Reader.run_cons]
      exact hitems (List.cons_ne_nil _ _)
  | .object members, stack => by
    have hmembers := run_memberTokens members [] stack
    cases members with
    | nil => rfl
    | cons m rest =>
      obtain ⟨ts, ht⟩ := exists_memberTokens_eq m.1 m.2 rest
      rw [ht] at hmembers
      rw [tokens, ht]
      exact hmembers (List.cons_ne_nil _ _)

/-- Reading items up to the end of their array. -/
theorem run_itemTokens : ∀ (items before : List Value) (stack : List Open), items ≠ [] →
    Reader.run ⟨.value, .array before :: stack⟩ (itemTokens items ++ [.closeArray]) =
      some ⟨.after (.array (before.reverse ++ items)), stack⟩
  | [], _, _, hne => absurd rfl hne
  | [v], before, stack, _ => by
    rw [itemTokens, Reader.run_append, run_tokens v, Option.bind_some, ← List.reverse_cons]
    rfl
  | v :: w :: rest, before, stack, _ => by
    have hrest := run_itemTokens (w :: rest) (v :: before) stack (List.cons_ne_nil _ _)
    rw [List.reverse_cons, List.append_assoc, List.singleton_append] at hrest
    rw [itemTokens_cons_cons, List.append_assoc, Reader.run_append, run_tokens v, Option.bind_some]
    exact hrest

/-- Reading members up to the end of their object. -/
theorem run_memberTokens : ∀ (members before : List (Option String × Value)) (stack : List Open),
    members ≠ [] →
    Reader.run ⟨.name before, stack⟩ (memberTokens members ++ [.closeObject]) =
      some ⟨.after (.object (before.reverse ++ members)), stack⟩
  | [], _, _, hne => absurd rfl hne
  | [(name, v)], before, stack, _ => by
    rw [memberTokens_singleton, run_member, Reader.run_append, run_tokens v, Option.bind_some,
      ← List.reverse_cons]
    rfl
  | (name, v) :: m :: rest, before, stack, _ => by
    have hrest := run_memberTokens (m :: rest) ((name, v) :: before) stack (List.cons_ne_nil _ _)
    rw [List.reverse_cons, List.append_assoc, List.singleton_append] at hrest
    rw [memberTokens_cons_cons, List.append_assoc, run_member, Reader.run_append, run_tokens v,
      Option.bind_some]
    exact hrest

end

/-! ## Numbers in the tokens of a value -/

mutual

/-- The tokens of a value never have two numbers in a row. -/
theorem apart_tokens : ∀ v : Value, Apart v.tokens
  | .null | .bool _ | .number _ | .text _ => List.isChain_singleton _
  | .array items => Apart.cons rfl (apart_itemTokens items)
  | .object members => Apart.cons rfl (apart_memberTokens members)

theorem apart_itemTokens : ∀ items : List Value, Apart (itemTokens items ++ [.closeArray])
  | [] => List.isChain_singleton _
  | [v] => (apart_tokens v).append rfl (List.isChain_singleton _)
  | v :: w :: rest => by
    rw [itemTokens_cons_cons, List.append_assoc]
    exact (apart_tokens v).append rfl (Apart.cons rfl (apart_itemTokens (w :: rest)))

theorem apart_memberTokens : ∀ members : List (Option String × Value),
    Apart (memberTokens members ++ [.closeObject])
  | [] => List.isChain_singleton _
  | [(name, v)] => by
    rw [memberTokens_singleton]
    exact Apart.cons rfl (Apart.cons rfl ((apart_tokens v).append rfl (List.isChain_singleton _)))
  | (name, v) :: m :: rest => by
    rw [memberTokens_cons_cons, List.append_assoc]
    exact Apart.cons rfl (Apart.cons rfl ((apart_tokens v).append rfl
      (Apart.cons rfl (apart_memberTokens (m :: rest)))))

end

/-- **A text that spells the tokens of a value means it.** -/
theorem parse?_of_spells {v : Value} {s : String} (h : Spells v.tokens s.toList) :
    parse? s = some v := by
  have hread : ofTokens? v.tokens = some v := by
    unfold ofTokens?
    rw [run_tokens v []]
    rfl
  unfold parse?
  rw [scan_of_spells h (apart_tokens v)]
  exact hread

end Value

end Compositor.Json
