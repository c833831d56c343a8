import Compositor.Proofs.Json.Parsing
import Compositor.Proofs.Json.Scanning

/-!
# Only what a text means is read

The reader never drops a token: what it expects next and the containers that are open tell all
the tokens that it was given (`Reader.taken`). Where it may stop no container is open, so it was
given the tokens of the value that it has read. With what is known of the scanner, a text means a
value if it spells the tokens of the value, and only then.

Main statement: `Value.parse?_eq_some`.
-/

namespace Compositor.Json

open Token

namespace Value

/-- Items with a comma behind each. -/
def itemsBefore (items : List Value) : List Token := items.flatMap fun v => v.tokens ++ [.comma]

/-- Members with a comma behind each. -/
def membersBefore (members : List (Option String × Value)) : List Token :=
  members.flatMap fun m => .text m.1 :: .colon :: m.2.tokens ++ [.comma]

theorem itemsBefore_concat (items : List Value) (v : Value) :
    itemsBefore (items ++ [v]) = itemsBefore items ++ v.tokens ++ [.comma] := by
  rw [itemsBefore, List.flatMap_append, List.flatMap_singleton, ← List.append_assoc]
  rfl

theorem membersBefore_concat (members : List (Option String × Value)) (name : Option String)
    (v : Value) : membersBefore (members ++ [(name, v)]) =
      membersBefore members ++ .text name :: .colon :: v.tokens ++ [.comma] := by
  rw [membersBefore, List.flatMap_append, List.flatMap_singleton, List.append_assoc]
  rfl

/-- Of the items of an array the last one has no comma behind it. -/
theorem itemTokens_concat (items : List Value) (v : Value) :
    itemTokens (items ++ [v]) = itemsBefore items ++ v.tokens := by
  induction items with
  | nil => simp [itemTokens, itemsBefore]
  | cons w rest ih =>
    have hfirst : itemTokens (w :: (rest ++ [v])) =
        w.tokens ++ .comma :: itemTokens (rest ++ [v]) := by
      cases rest <;> exact itemTokens_cons_cons ..
    rw [List.cons_append, hfirst, ih, itemsBefore, itemsBefore, List.flatMap_cons]
    simp only [List.append_assoc, List.cons_append, List.nil_append]

/-- Of the members of an object the last one has no comma behind it. -/
theorem memberTokens_concat (members : List (Option String × Value)) (name : Option String)
    (v : Value) : memberTokens (members ++ [(name, v)]) =
      membersBefore members ++ .text name :: .colon :: v.tokens := by
  induction members with
  | nil => simp [memberTokens, membersBefore]
  | cons m rest ih =>
    have hfirst : memberTokens (m :: (rest ++ [(name, v)])) =
        .text m.1 :: .colon :: m.2.tokens ++ .comma :: memberTokens (rest ++ [(name, v)]) := by
      cases rest <;> exact memberTokens_cons_cons ..
    rw [List.cons_append, hfirst, ih, membersBefore, membersBefore, List.flatMap_cons]
    simp only [List.append_assoc, List.cons_append, List.nil_append]

end Value

open Value

/-- The tokens of an open container. -/
def Open.tokens : Open → List Token
  | .array items => .openArray :: itemsBefore items.reverse
  | .object members name => .openObject :: membersBefore members.reverse ++ [.text name, .colon]

/-- The tokens behind those of the open containers. -/
def Expect.tokens : Expect → List Token
  | .value => []
  | .itemOrClose => [.openArray]
  | .nameOrClose => [.openObject]
  | .name members => .openObject :: membersBefore members.reverse
  | .colon members key => .openObject :: membersBefore members.reverse ++ [.text key]
  | .after v => v.tokens

namespace Reader

variable {r r' : Reader} {t : Token} {ts : List Token} {stack : List Open} {v : Value}

/-- The tokens of the open containers, the innermost last. -/
def stackTokens (stack : List Open) : List Token := stack.reverse.flatMap Open.tokens

/-- **The tokens that the reader was given.** -/
def taken (r : Reader) : List Token := stackTokens r.stack ++ r.expect.tokens

theorem stackTokens_cons (o : Open) (stack : List Open) :
    stackTokens (o :: stack) = stackTokens stack ++ o.tokens := by
  rw [stackTokens, List.reverse_cons, List.flatMap_append, List.flatMap_singleton]
  rfl

/-- At the start of a value every token goes on with those of the open containers. -/
theorem taken_beginValue (h : beginValue stack t = some r) :
    r.taken = stackTokens stack ++ [t] := by
  cases t <;> cases h <;> rfl

/-- Behind a value every token goes on with those of the container on top of the stack. -/
theorem taken_afterValue (h : afterValue v stack t = some r) :
    r.taken = stackTokens stack ++ v.tokens ++ [t] := by
  unfold afterValue at h
  split at h
  · cases h
    simp [taken, stackTokens_cons, Open.tokens, Expect.tokens, itemsBefore_concat]
  · cases h
    simp [taken, stackTokens_cons, Open.tokens, Expect.tokens, itemTokens_concat, tokens]
  · cases h
    simp [taken, stackTokens_cons, Open.tokens, Expect.tokens, membersBefore_concat]
  · cases h
    simp [taken, stackTokens_cons, Open.tokens, Expect.tokens, memberTokens_concat, tokens]
  · cases h

/-- **Every step takes its token.** -/
theorem taken_step (h : r.step t = some r') : r'.taken = r.taken ++ [t] := by
  obtain ⟨expect, stack⟩ := r
  unfold step at h
  cases expect with
  | value =>
    rw [taken_beginValue h]
    exact congrArg (· ++ [t]) (List.append_nil _).symm
  | itemOrClose =>
    dsimp only at h
    split at h
    · cases h
      simp [taken, Expect.tokens, tokens, itemTokens]
    · rw [taken_beginValue h, stackTokens_cons]
      rfl
  | nameOrClose =>
    dsimp only at h
    split at h
    · cases h
      simp [taken, Expect.tokens, tokens, memberTokens]
    · cases h
      simp [taken, Expect.tokens, membersBefore]
    · cases h
  | name members =>
    dsimp only at h
    split at h
    · cases h
      simp [taken, Expect.tokens]
    · cases h
  | colon members name =>
    dsimp only at h
    split at h
    · cases h
      simp [taken, Expect.tokens, stackTokens_cons, Open.tokens]
    · cases h
  | after v => exact taken_afterValue h

/-- Every run takes its tokens. -/
theorem taken_run (h : r.run ts = some r') : r'.taken = r.taken ++ ts := by
  induction ts generalizing r with
  | nil =>
    cases h
    exact (List.append_nil _).symm
  | cons t ts ih =>
    rw [run_cons] at h
    obtain ⟨r₁, hstep, hrest⟩ := Option.bind_eq_some_iff.1 h
    rw [ih hrest, taken_step hstep, List.append_assoc, List.singleton_append]

end Reader

namespace Value

/-- **The tokens from which a value is read are those of the value.** -/
theorem eq_tokens_of_ofTokens? {ts : List Token} {v : Value} (h : ofTokens? ts = some v) :
    ts = v.tokens := by
  obtain ⟨r, hrun, hfinish⟩ := Option.bind_eq_some_iff.1 h
  have htaken := Reader.taken_run hrun
  obtain ⟨expect, stack⟩ := r
  unfold Reader.finish at hfinish
  dsimp only at hfinish
  split at hfinish
  · cases hfinish
    exact htaken.symm
  · cases hfinish

/-- **A text means a value exactly if it spells the tokens of the value.** -/
theorem parse?_eq_some {text : String} {v : Value} :
    parse? text = some v ↔ Spells v.tokens text.toList := by
  refine ⟨fun h => ?_, parse?_of_spells⟩
  obtain ⟨ts, hscan, hread⟩ := Option.bind_eq_some_iff.1 h
  rw [← eq_tokens_of_ofTokens? hread]
  exact spells_of_scan hscan

end Value

end Compositor.Json
