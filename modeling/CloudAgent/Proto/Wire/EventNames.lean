import CloudAgent.Proto.Wire.RoundTrip

/-! Event names as keys: an event and the settings that are kept for its name. -/
namespace CloudAgent.Proto.Wire

/-! ### Names -/

/-- `name` of an event and of its settings. `none`: the invalid type has no text, which throws. -/
def nameOf (key : EventType × String) : Option String :=
  if key.1 = .custom then some key.2 else toText (eventType.toJson key.1)

def eventObject.key (e : eventObject.Value) : EventType × String :=
  ((eventObject.kind e).event, (eventObject.kind e).customEventName)

def eventObject.name (e : eventObject.Value) : Option String := nameOf (eventObject.key e)

def eventConfig.nameText (c : eventConfig.Value) : Option String := nameOf (eventConfig.name c)

/-- `name_eq` -/
def eventConfig.nameEq (c r : eventConfig.Value) : Bool :=
  (eventConfig.name c).1 = (eventConfig.name r).1 && (eventConfig.name c).2 = (eventConfig.name r).2

/-- What `get_event_config` looks for: the custom name of a custom event, the type of any other. -/
def keyFits (event config : EventType × String) : Bool :=
  if event.1 = .custom then config.2 = event.2 else config.1 = event.1

/-- `get_event_config` -/
def getEventConfig (events : List eventConfig.Value) (e : eventObject.Value) : Option eventConfig.Value :=
  events.find? fun c => keyFits (eventObject.key e) (eventConfig.name c)

/-- The JSON object gives the event that name. -/
def Names (j : Json) (n : String) : Prop := j.at? "event" = some (.str n)

variable {j j' : Json} {n m : String}

/-- The type and the custom name that a name is split into. -/
def keyOf (n : String) : EventType × String :=
  if eventType.ofJson (.str n) = .invalid then (.custom, n) else (eventType.ofJson (.str n), unsetString)

theorem readName_of_names (h : Names j n) : EventKind.readName j = keyOf n := by
  rw [EventKind.readName, h, keyOf]
  rfl

theorem key_read (h : Names j n) : eventObject.key (eventObject.part.read j) = keyOf n := by
  rw [← readName_of_names h]
  rfl

theorem name_read (h : Names j n) : eventConfig.name (eventConfig.part.read j) = keyOf n := by
  rw [← readName_of_names h]
  rfl

theorem keyOf_custom : keyOf "custom" = (.custom, unsetString) := by decide

/-- Of the names that are no reserved word. -/
theorem keyOf_of_notMem (h : n ∉ eventTexts) : keyOf n = (.custom, n) := if_pos (eventType_ofJson_eq_invalid.mpr h)

/-- Of the names of the other types. -/
theorem keyOf_of_mem (h : n ∈ eventTexts) (hc : n ≠ "custom") :
    keyOf n = (eventType.ofJson (.str n), unsetString) ∧ eventType.ofJson (.str n) ≠ .custom ∧
      eventType.toJson (eventType.ofJson (.str n)) = .str n := by
  refine ⟨if_neg fun hi => eventType_ofJson_eq_invalid.mp hi h, fun heq => hc (eventType_ofJson_eq_custom heq), ?_⟩
  simp only [eventTexts, List.mem_cons, List.not_mem_nil, or_false] at h
  obtain rfl | rfl | rfl | rfl | rfl | rfl | rfl := h <;> rfl

theorem nameOf_keyOf (hc : n ≠ "custom") : nameOf (keyOf n) = some n := by
  by_cases h : n ∈ eventTexts
  · obtain ⟨hkey, hne, hjson⟩ := keyOf_of_mem h hc
    rw [hkey, nameOf, if_neg hne, hjson]
    rfl
  · rw [keyOf_of_notMem h]
    rfl

theorem nameJson_keyOf (hc : n ≠ "custom") : EventKind.nameJson (keyOf n).1 (keyOf n).2 = .str n := by
  by_cases h : n ∈ eventTexts
  · obtain ⟨hkey, hne, hjson⟩ := keyOf_of_mem h hc
    rw [hkey, EventKind.nameJson, if_neg hne, hjson]
  · rw [keyOf_of_notMem h]
    rfl

/-- An event fits the settings of its own name, and no others that have one. -/
theorem keyFits_keyOf (hc : n ≠ "custom") (hn : n ≠ unsetString) (hm : m ≠ unsetString) :
    keyFits (keyOf n) (keyOf m) = true ↔ m = n := by
  by_cases h : n ∈ eventTexts
  · obtain ⟨hkey, hne, hjson⟩ := keyOf_of_mem h hc
    rw [hkey, keyFits, if_neg hne, decide_eq_true_iff]
    constructor
    · intro hsame
      have htype : (keyOf m).1 ≠ .custom := fun heq => hne (hsame.symm.trans heq)
      have hmem : m ∈ eventTexts := by
        by_contra hnot
        rw [keyOf_of_notMem hnot] at htype
        exact htype rfl
      have hmc : m ≠ "custom" := by
        rintro rfl
        exact htype (by rw [keyOf_custom])
      obtain ⟨hkeym, -, hjsonm⟩ := keyOf_of_mem hmem hmc
      rw [hkeym] at hsame
      dsimp only at hsame
      rw [hsame, hjson] at hjsonm
      exact (Json.str.inj hjsonm).symm
    · rintro rfl
      rw [hkey]
  · rw [keyOf_of_notMem h, keyFits, if_pos rfl, decide_eq_true_iff]
    by_cases hmem : m ∈ eventTexts
    · have hunset : (keyOf m).2 = unsetString := by
        by_cases hmc : m = "custom"
        · rw [hmc, keyOf_custom]
        · rw [(keyOf_of_mem hmem hmc).1]
      rw [hunset]
      exact iff_of_false hn.symm fun heq => h (heq ▸ hmem)
    · rw [keyOf_of_notMem hmem]

theorem keyOf_injective (hn : n ≠ unsetString) (hm : m ≠ unsetString) (h : keyOf n = keyOf m) : n = m := by
  by_cases hc : n = "custom"
  · subst hc
    by_contra hne
    have hfits : keyFits (keyOf m) (keyOf "custom") = true := by
      rw [h, keyFits]
      split <;> exact decide_eq_true rfl
    exact hne ((keyFits_keyOf (Ne.symm hne) hm hn).mp hfits)
  · have hfits : keyFits (keyOf n) (keyOf m) = true := by
      rw [h, keyFits]
      split <;> exact decide_eq_true rfl
    exact ((keyFits_keyOf hc hn hm).mp hfits).symm

theorem at?_write_eventObject (e : eventObject.Value) :
    (eventObject.codec.enc e).at? "event" = some (EventKind.nameJson (eventObject.key e).1 (eventObject.key e).2) :=
  EventKind.at?_write_event (eventObject.kind e) _

/-- The members behind it leave the name as it is. -/
theorem at?_write_eventConfig (c : eventConfig.Value) :
    (eventConfig.codec.enc c).at? "event" =
      some (EventKind.nameJson (eventConfig.name c).1 (eventConfig.name c).2) := by
  have hrest := (Part.ofFields eventConfig.fields.tail (List.nodup_append.mp eventConfig.distinct).2.1).1.frame c.2
    (eventName.write c.1 .null) "event" (by decide)
  refine hrest.trans ?_
  change (Json.null.set "event" _).at? "event" = _
  exact Json.at?_set_self ..

/-! ### Faithful names -/

/-- What is parsed with the name `n` has it, is written with it again, and is told apart from all that has another. -/
structure FaithfulName (n : String) : Prop where
  object : ∀ j, Names j n → eventObject.name (eventObject.part.read j) = some n ∧
    Names (eventObject.codec.enc (eventObject.part.read j)) n
  config : ∀ j, Names j n → eventConfig.nameText (eventConfig.part.read j) = some n ∧
    Names (eventConfig.codec.enc (eventConfig.part.read j)) n
  found : ∀ (j : Json) (configs : List Json), Names j n → (∀ c ∈ configs, ∃ m ≠ unsetString, Names c m) →
    (∃ c ∈ configs, Names c n) → ∃ c ∈ configs, Names c n ∧
      getEventConfig (configs.map eventConfig.part.read) (eventObject.part.read j) = some (eventConfig.part.read c)
  apart : ∀ (j c c' : Json) (m : String), Names j n → Names c n → Names c' m → m ≠ unsetString → m ≠ n →
    eventConfig.nameEq (eventConfig.part.read c) (eventConfig.part.read c') = false ∧
      getEventConfig [eventConfig.part.read c'] (eventObject.part.read j) = none

/-- The settings that are found are those of the first name that the event's name fits. -/
theorem getEventConfig_map (h : Names j n) (configs : List Json) :
    getEventConfig (configs.map eventConfig.part.read) (eventObject.part.read j) =
      (configs.find? fun c => keyFits (keyOf n) (EventKind.readName c)).map eventConfig.part.read := by
  rw [getEventConfig, List.find?_map, key_read h]
  rfl

/-- Only the text of the custom type itself is no name: it is taken for the type, without a custom name. -/
theorem faithfulName_iff (hn : n ≠ unsetString) : FaithfulName n ↔ n ≠ "custom" := by
  constructor
  · rintro h rfl
    have hnames : Names (.obj [("event", .str "custom")]) "custom" := rfl
    obtain ⟨hname, -⟩ := h.object _ hnames
    rw [eventObject.name, key_read hnames, keyOf_custom] at hname
    exact absurd hname (by decide)
  · intro hc
    refine ⟨fun j hj => ⟨?_, ?_⟩, fun j hj => ⟨?_, ?_⟩, fun j configs hj hnamed hex => ?_,
      fun j c c' m hj hcn hcm hm hne => ⟨?_, ?_⟩⟩
    · rw [eventObject.name, key_read hj, nameOf_keyOf hc]
    · rw [Names, at?_write_eventObject, key_read hj, nameJson_keyOf hc]
    · rw [eventConfig.nameText, name_read hj, nameOf_keyOf hc]
    · rw [Names, at?_write_eventConfig, name_read hj, nameJson_keyOf hc]
    · rw [getEventConfig_map hj]
      obtain ⟨c₀, hc₀, hnames⟩ := hex
      have hfits : keyFits (keyOf n) (EventKind.readName c₀) = true := by
        rw [readName_of_names hnames]
        exact (keyFits_keyOf hc hn hn).mpr rfl
      obtain ⟨c, hfind⟩ : ∃ c, configs.find? (fun c => keyFits (keyOf n) (EventKind.readName c)) = some c :=
        Option.isSome_iff_exists.mp (List.find?_isSome.mpr ⟨c₀, hc₀, hfits⟩)
      have hmem := List.mem_of_find?_eq_some hfind
      obtain ⟨m, hm, hcm⟩ := hnamed c hmem
      have hfit := List.find?_some hfind
      rw [readName_of_names hcm] at hfit
      obtain rfl := (keyFits_keyOf hc hn hm).mp hfit
      exact ⟨c, hmem, hcm, by rw [hfind, Option.map_some]⟩
    · rw [Bool.eq_false_iff]
      intro heq
      rw [eventConfig.nameEq, name_read hcn, name_read hcm, Bool.and_eq_true, decide_eq_true_iff,
        decide_eq_true_iff] at heq
      exact hne (keyOf_injective hn hm (Prod.ext heq.1 heq.2)).symm
    · rw [← List.map_singleton, getEventConfig_map hj, List.find?_singleton, readName_of_names hcm,
        if_neg fun hfit => hne ((keyFits_keyOf hc hn hm).mp hfit), Option.map_none]

/-- A name of the device's own. -/
theorem faithfulName_digital : FaithfulName "digital-input" := (faithfulName_iff (by decide)).mpr (by decide)

/-- An event with the reserved name gets the settings of motion events. -/
theorem not_faithfulName_custom :
    getEventConfig [eventConfig.part.read (.obj [("event", .str "motion")])]
      (eventObject.part.read (.obj [("event", .str "custom")])) =
        some (eventConfig.part.read (.obj [("event", .str "motion")])) ∧
    ¬ ∀ n ≠ unsetString, FaithfulName n := by
  have hnames : Names (.obj [("event", .str "custom")]) "custom" := rfl
  constructor
  · rw [← List.map_singleton, getEventConfig_map hnames]
    rfl
  · intro h
    obtain ⟨hname, -⟩ := (h "custom" (by decide)).object _ hnames
    rw [eventObject.name, key_read hnames, keyOf_custom] at hname
    exact absurd hname (by decide)

end CloudAgent.Proto.Wire
