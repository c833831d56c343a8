import Compositor.Manager.Config
import Compositor.Proofs.Json.Parsing
import Compositor.Proofs.Json.Records

/-!
# What the text of a configuration means

A configuration is the value of five fields. A text *lists* it if it is an object whose members are
fields of the configuration, none of them twice and in any order, where a field may be left out if
it has the value that it has by default. However such a text is spelled, it is read as the
configuration, which is then refused if an amount that it gives is zero.
-/

namespace Compositor.Config

open Json Json.Value Token

/-! ## Listing a configuration -/

/-- The amount of a configuration, if it is given. -/
def amount (c : Config) : ConfigAmount → Option Nat
  | .total => c.total
  | .softLimit => c.softLimit
  | .windowCount => c.windowCount

/-- **The fields of a configuration**, each with its value; one that is not given is `null`. -/
def fields (c : Config) : List (String × Json.Value) :=
  [("platform", .ofOption (fun p => .str p.name) c.platform),
    (ConfigAmount.total.field, .ofOption .nat c.total),
    (ConfigAmount.softLimit.field, .ofOption .nat c.softLimit),
    ("delayed_manage_ms", .nat c.delayedManageMillis),
    (ConfigAmount.windowCount.field, .ofOption .nat c.windowCount)]

/-- Every number of a configuration fits its word. -/
structure Fits (c : Config) : Prop where
  total : ∀ n ∈ c.total, n < wordLimit
  softLimit : ∀ n ∈ c.softLimit, n < wordLimit
  delay : c.delayedManageMillis < wordLimit
  windowCount : ∀ n ∈ c.windowCount, n < word32Limit

/-- **Members list a configuration**: they are fields of it, none of them twice, and a field that
is not among them has the value that it has by default. -/
structure ListedBy (c : Config) (members : List (String × Json.Value)) : Prop where
  nodup : (members.map Prod.fst).Nodup
  mem_fields : ∀ m ∈ members, m ∈ c.fields
  left_out : ∀ m ∈ c.fields, m ∈ members ∨ m ∈ ({} : Config).fields

variable {c : Config} {members : List (String × Json.Value)}

theorem map_fst_fields (c : Config) : c.fields.map Prod.fst = fieldNames := rfl

theorem nodup_fieldNames : fieldNames.Nodup := by decide

theorem mem_fields_platform (c : Config) :
    ("platform", .ofOption (fun p => .str p.name) c.platform) ∈ c.fields :=
  .head _

theorem mem_fields_amount (c : Config) (a : ConfigAmount) :
    (a.field, .ofOption .nat (c.amount a)) ∈ c.fields := by
  cases a with
  | total => exact .tail _ (.head _)
  | softLimit => exact .tail _ (.tail _ (.head _))
  | windowCount => exact .tail _ (.tail _ (.tail _ (.tail _ (.head _))))

theorem mem_fields_delay (c : Config) :
    ("delayed_manage_ms", .nat c.delayedManageMillis) ∈ c.fields :=
  .tail _ (.tail _ (.tail _ (.head _)))

/-- No field has two values. -/
theorem value_unique {name : String} {v v' : Json.Value} (h : (name, v) ∈ c.fields)
    (h' : (name, v') ∈ c.fields) : v = v' :=
  congrArg Prod.snd (List.inj_on_of_nodup_map
    (map_fst_fields c ▸ nodup_fieldNames : (c.fields.map Prod.fst).Nodup) h h' rfl)

/-- What a reader finds of a field: its value, or nothing if that is the default. -/
theorem ListedBy.member? (h : c.ListedBy members) {name : String} {v : Json.Value}
    (hfield : (name, v) ∈ c.fields) :
    Json.Value.member? (named members) name = some v ∨
      Json.Value.member? (named members) name = none ∧ (name, v) ∈ ({} : Config).fields := by
  by_cases hmem : (name, v) ∈ members
  · exact .inl (member?_of_mem h.nodup hmem)
  · refine .inr ⟨member?_of_not_mem fun hname => hmem ?_, (h.left_out _ hfield).resolve_left hmem⟩
    -- A member of that name is the field, since no two fields have one name.
    obtain ⟨⟨name', v'⟩, hmem', rfl⟩ := List.mem_map.1 hname
    rwa [value_unique hfield (h.mem_fields _ hmem')]

/-! ## Reading the fields -/

/-- An optional field is read from its value, and as absent if it is not found. -/
theorem optional_eq {α : Type} (decode : Json.Value → Option α) (encode : α → Json.Value)
    (part : Option α) (hencode : ∀ a ∈ part, encode a ≠ .null ∧ decode (encode a) = some a)
    {field : Option Json.Value}
    (hfield : field = some (.ofOption encode part) ∨ field = none ∧ part = none) :
    defaulting? none (nullable? decode) field = some part := by
  rcases hfield with rfl | ⟨rfl, rfl⟩
  · cases part with
    | none => rfl
    | some a =>
      obtain ⟨hnull, hdecode⟩ := hencode a rfl
      unfold defaulting? nullable? ofOption
      dsimp only
      split
      · next heq => exact absurd heq hnull
      · rw [hdecode]
        rfl
  · rfl

theorem natBelow?_nat {n limit : Nat} (h : n < limit) : natBelow? limit (.nat n) = some n := by
  have hint : int? (.nat n) = some (.ofNat n) := Number.toInt?_ofInt n
  unfold natBelow?
  rw [hint]
  exact if_pos h

theorem nat_inj {m n : Nat} (h : Json.Value.nat m = .nat n) : m = n := by
  injection h with h
  have hint := congrArg Number.toInt? h
  rw [Number.toInt?_ofInt, Number.toInt?_ofInt] at hint
  injection hint with hint
  exact Int.ofNat_inj.1 hint

theorem str_ne_null (s : String) : Json.Value.str s ≠ .null := by
  intro h
  cases h

theorem nat_ne_null (n : Nat) : Json.Value.nat n ≠ .null := by
  intro h
  cases h

/-- A field that is optional is found as it is, or left out and absent. -/
theorem ListedBy.optional (h : c.ListedBy members) {α : Type} {encode : α → Json.Value}
    {part : Option α} {name : String} (hencode : ∀ a, encode a ≠ .null)
    (hfield : (name, Json.Value.ofOption encode part) ∈ c.fields)
    (hdefault : (name, Json.Value.null) ∈ ({} : Config).fields) :
    Json.Value.member? (named members) name = some (.ofOption encode part) ∨
      Json.Value.member? (named members) name = none ∧ part = none := by
  refine (h.member? hfield).imp_right (And.imp_right fun hmem => ?_)
  have heq := value_unique hmem hdefault
  cases part with
  | none => rfl
  | some a => exact absurd heq (hencode a)

/-- **A configuration is read from any object that lists it.** -/
theorem ofJson?_of_listedBy (hfits : c.Fits) (h : c.ListedBy members) :
    ofJson? (.ofFields members) = some c := by
  have hfields : fields? fieldNames true (.ofFields members) =
      some (fieldNames.map (Json.Value.member? (named members))) :=
    fields?_named h.nodup fun _ m hm =>
      map_fst_fields c ▸ List.mem_map_of_mem (h.mem_fields m hm)
  have hplatform := optional_eq (fun v => v.choice?.bind Platform.ofName?) (fun p => .str p.name)
    c.platform (fun p _ => ⟨str_ne_null p.name, Platform.ofName?_name p⟩)
    (h.optional (fun p => str_ne_null p.name) c.mem_fields_platform (mem_fields_platform {}))
  have hnumber {limit : Nat} (a : ConfigAmount) (hpart : ∀ n ∈ c.amount a, n < limit) :
      defaulting? none (nullable? (natBelow? limit))
        (Json.Value.member? (named members) a.field) = some (c.amount a) := by
    have hdefault : (a.field, Json.Value.null) ∈ ({} : Config).fields := by
      cases a <;> exact mem_fields_amount {} _
    exact optional_eq _ _ _ (fun n hn => ⟨nat_ne_null n, natBelow?_nat (hpart n hn)⟩)
      (h.optional nat_ne_null (c.mem_fields_amount a) hdefault)
  have htotal : _ = some c.total := hnumber .total hfits.total
  have hsoftLimit : _ = some c.softLimit := hnumber .softLimit hfits.softLimit
  have hwindowCount : _ = some c.windowCount := hnumber .windowCount hfits.windowCount
  have hdelay : defaulting? ({} : Config).delayedManageMillis (natBelow? wordLimit)
      (Json.Value.member? (named members) "delayed_manage_ms") = some c.delayedManageMillis := by
    rcases h.member? c.mem_fields_delay with hfound | ⟨hnone, hmem⟩
    · rw [hfound]
      exact natBelow?_nat hfits.delay
    · have hsame : c.delayedManageMillis = ({} : Config).delayedManageMillis :=
        nat_inj (value_unique hmem (mem_fields_delay {}))
      rw [hnone, hsame]
      rfl
  unfold ofJson?
  rw [hfields]
  simp only [fieldNames, List.map_cons, List.map_nil, hplatform, htotal, hsoftLimit, hdelay,
    hwindowCount, Option.bind_eq_bind, Option.bind_some, Option.pure_def]

/-! ## Reading a text -/

/-- A configuration is accepted, or an amount that it gives is zero and it is refused for that. -/
theorem validate_cases (c : Config) :
    c.validate = .ok () ∧ (∀ a, c.amount a ≠ some 0) ∨
      ∃ a, c.amount a = some 0 ∧ c.validate = .error (.zero a) := by
  unfold validate
  split
  · next htotal => exact .inr ⟨.total, htotal, rfl⟩
  · next htotal =>
    split
    · next hsoftLimit => exact .inr ⟨.softLimit, hsoftLimit, rfl⟩
    · next hsoftLimit =>
      split
      · next hwindowCount => exact .inr ⟨.windowCount, hwindowCount, rfl⟩
      · next hwindowCount =>
        refine .inl ⟨rfl, fun a => ?_⟩
        cases a with
        | total => exact htotal
        | softLimit => exact hsoftLimit
        | windowCount => exact hwindowCount

/-- **A text that lists a configuration** means it, whatever the order, the blanks and the
spelling; and then it is looked at whether it is accepted. -/
theorem ofText_of_spells (hfits : c.Fits) (h : c.ListedBy members) {text : String}
    (hspells : Spells (Json.Value.ofFields members).tokens text.toList) :
    ofText text = c.validate.map fun _ => c := by
  unfold ofText
  rw [parse?_of_spells hspells, Option.bind_some, ofJson?_of_listedBy hfits h]

/-- What is read from a text was accepted. -/
theorem validate_of_ofText {text : String} (h : ofText text = .ok c) : c.validate = .ok () := by
  unfold ofText at h
  split at h
  · cases h
  · next config _ =>
    rcases config.validate_cases with ⟨hok, -⟩ | ⟨a, -, herror⟩
    · rw [hok] at h
      cases h
      exact hok
    · rw [herror] at h
      cases h

/-- A text with a further member is no record of a configuration. -/
theorem ofText_of_further {before after : List (String × Json.Value)}
    {extra : Option String × Json.Value} {text : String} (h : c.ListedBy (before ++ after))
    (hextra : (∀ field ∈ fieldNames, extra.1 ≠ some field) ∨
      ∃ m ∈ before ++ after, extra.1 = some m.1)
    (hspells : Spells (Json.Value.object (named before ++ extra :: named after)).tokens
      text.toList) : ofText text = .error .parse := by
  have hfields :
      fields? fieldNames true (.object (named before ++ extra :: named after)) = none := by
    refine fields?_further (hextra.imp_right ?_)
    rintro ⟨m, hm, hname⟩
    have hfield : m.1 ∈ fieldNames :=
      map_fst_fields c ▸ List.mem_map_of_mem (h.mem_fields m hm)
    exact ⟨m.1, hfield, hname, List.mem_map_of_mem hm⟩
  have hnone : ofJson? (.object (named before ++ extra :: named after)) = none := by
    unfold ofJson?
    rw [hfields]
  unfold ofText
  rw [parse?_of_spells hspells, Option.bind_some, hnone]

/-- **The text of a configuration means the configuration.** Any text that lists a configuration
that is accepted is read as it. Whatever is read is accepted. A text with a further member is not
read, be its name that of no field or that of a field that stands there already. And a text that
gives an amount as zero, but lists a configuration otherwise, is refused for such an amount. -/
theorem text_means_config (c : Config) :
    (∀ (members : List (String × Json.Value)) (text : String),
      c.Fits → c.validate = .ok () → c.ListedBy members →
      Spells (Json.Value.ofFields members).tokens text.toList → ofText text = .ok c) ∧
    (∀ text : String, ofText text = .ok c → c.validate = .ok ()) ∧
    (∀ (before after : List (String × Json.Value)) (extra : Option String × Json.Value)
      (text : String), c.ListedBy (before ++ after) →
      (∀ field ∈ fieldNames, extra.1 ≠ some field) ∨
        (∃ m ∈ before ++ after, extra.1 = some m.1) →
      Spells (Json.Value.object (named before ++ extra :: named after)).tokens text.toList →
      ofText text = .error .parse) ∧
    ∀ (members : List (String × Json.Value)) (text : String),
      c.Fits → c.ListedBy members → Spells (Json.Value.ofFields members).tokens text.toList →
      (∃ a, c.amount a = some 0) →
      ∃ a, c.amount a = some 0 ∧ ofText text = .error (.zero a) := by
  refine ⟨fun members text hfits hvalid hlisted hspells => ?_,
    fun text hok => validate_of_ofText hok,
    fun before after extra text hlisted hextra hspells =>
      ofText_of_further hlisted hextra hspells,
    fun members text hfits hlisted hspells hzero => ?_⟩
  · rw [ofText_of_spells hfits hlisted hspells, hvalid]
    rfl
  · obtain ⟨a, ha⟩ := hzero
    rcases c.validate_cases with ⟨-, hnone⟩ | ⟨a', ha', herror⟩
    · exact absurd ha (hnone a)
    · refine ⟨a', ha', ?_⟩
      rw [ofText_of_spells hfits hlisted hspells, herror]
      rfl

/-- The windows of a Chrome OS device. -/
def onChromeOs (windows : Nat) : Config :=
  { platform := some .chromeOs, windowCount := some windows }

/-- Those members of it that are not left out, the last one first. -/
def onChromeOsMembers (windows : Nat) : List (String × Json.Value) :=
  [("window_count", .nat windows), ("platform", .str "chromeos")]

/-- Two windows are read from a text that has the fields the other way round, blanks and an
escape. With one more member that text is none, and with no windows it is refused. -/
theorem text_means_config_two_windows :
    ofText "\x7b \"window_count\" :2,\n\"platform\": \"chrome\\u006fs\"\x7d" =
        .ok (onChromeOs 2) ∧
      ofText "\x7b \"window_count\" :2,\n\"platform\": \"chrome\\u006fs\",\"bogus\":0\x7d" =
        .error .parse ∧
      ofText "\x7b \"window_count\" :0,\n\"platform\": \"chrome\\u006fs\"\x7d" =
        .error (.zero .windowCount) := by
  have hfits (n : Nat) (hn : n < 10) : (onChromeOs n).Fits := by
    have hdelay : ({} : Config).delayedManageMillis < wordLimit := by decide
    refine ⟨fun m hm => ?_, fun m hm => ?_, hdelay, fun m hm => ?_⟩
    · cases hm
    · cases hm
    · cases hm
      exact hn.trans (by decide)
  have hlisted (n : Nat) : (onChromeOs n).ListedBy (onChromeOsMembers n) := by
    have hnodup : ["window_count", "platform"].Nodup := by decide
    refine ⟨hnodup, fun m hm => ?_, fun m hm => ?_⟩
    · simp only [onChromeOsMembers, List.mem_cons, List.not_mem_nil, or_false] at hm
      rcases hm with rfl | rfl
      · exact mem_fields_amount _ .windowCount
      · exact mem_fields_platform _
    · simp only [fields, List.mem_cons, List.not_mem_nil, or_false] at hm
      rcases hm with rfl | rfl | rfl | rfl | rfl
      · exact .inl (.tail _ (.head _))
      · exact .inr (mem_fields_amount {} .total)
      · exact .inr (mem_fields_amount {} .softLimit)
      · exact .inr (mem_fields_delay {})
      · exact .inl (.head _)
  have hnone : ∀ c ∈ ([] : List Char), isBlank c = true := List.forall_mem_nil _
  have hblank : ∀ c ∈ [' '], isBlank c = true := List.forall_mem_singleton.2 rfl
  have hline : ∀ c ∈ ['\n'], isBlank c = true := List.forall_mem_singleton.2 rfl
  have hdigit (n : Fin 10) : NumberSpelling.WellFormed { whole := [n] } := by
    refine ⟨(eq_or_ne n 0).imp (congrArg fun n => [n]) fun hn => ⟨n, [], rfl, hn⟩, ?_, ?_⟩
    · rintro digits ⟨⟩
    · rintro e ⟨⟩
  have hchrome : Spelled (.text (some "chromeos"))
      ['"', 'c', 'h', 'r', 'o', 'm', 'e', '\\', 'u', '0', '0', '6', 'f', 's', '"'] := by
    have hgroups : List.Forall₂ Piece.SpellChar "chromeos".toList
        [[.plain 'c'], [.plain 'h'], [.plain 'r'], [.plain 'o'], [.plain 'm'], [.plain 'e'],
          [.hex '0' '0' '6' 'f'], [.plain 's']] := by
      repeat first | exact .nil | refine .cons (.one rfl) ?_
    exact .text hgroups
  -- The two members, before what else stands in the text.
  have hmembers (n : Fin 10) {ts : List Token} {cs : List Char} (h : Spells ts cs) :=
    Spells.cons hnone .openObject <| Spells.cons hblank (.quoted "window_count") <|
      Spells.cons hblank .colon <| Spells.cons hnone (.number (hdigit n)) <|
      Spells.cons hnone .comma <| Spells.cons hline (.quoted "platform") <|
      Spells.cons hnone .colon <| Spells.cons hblank hchrome h
  have hclose := Spells.cons hnone .closeObject (.nil hnone)
  have hbogus := Spells.cons hnone .comma <| Spells.cons hnone (.quoted "bogus") <|
    Spells.cons hnone .colon <| Spells.cons hnone (.number (hdigit 0)) hclose
  obtain ⟨hmeans, -, hfurther, -⟩ := text_means_config (onChromeOs 2)
  obtain ⟨-, -, -, hzero⟩ := text_means_config (onChromeOs 0)
  refine ⟨hmeans _ _ (hfits 2 (by decide)) rfl (hlisted 2) (hmembers 2 hclose), ?_, ?_⟩
  · exact hfurther (onChromeOsMembers 2) [] (some "bogus", .nat 0) _ (hlisted 2) (.inl (by decide))
      (hmembers 2 hbogus)
  · obtain ⟨a, ha, herror⟩ := hzero _
      "\x7b \"window_count\" :0,\n\"platform\": \"chrome\\u006fs\"\x7d" (hfits 0 (by decide))
      (hlisted 0) (hmembers 0 hclose) ⟨.windowCount, rfl⟩
    cases a with
    | windowCount => exact herror
    | total => cases ha
    | softLimit => cases ha

end Compositor.Config
