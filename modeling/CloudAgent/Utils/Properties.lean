import CloudAgent.Lib.StdMap

/-! The property file, and the defaults that are merged into it. -/
namespace CloudAgent.Utils

/-- What a file holds: nothing that can be parsed, or an object with texts. -/
inductive PropsFile
  | missing | broken
  | object (props : StdMap String)

def PropsFile.props : PropsFile → StdMap String
  | .object props => props
  | _ => ∅

/-- The static members of `properties`, and the files. -/
structure Properties where
  propsFilename : String
  defaultPropsFilename : String
  file : String → PropsFile
  writable : String → Bool

namespace Properties
variable {p : Properties} {filepath key val : String} {defaults : StdMap String}

/-- `__load`, which always returns true: a broken file is read as the defaults. -/
def load (p : Properties) (filepath : String) : StdMap String :=
  match p.file filepath with
  | .missing => ∅
  | .object props => props
  | .broken => if filepath ≠ p.defaultPropsFilename then (p.file p.defaultPropsFilename).props else ∅

/-- `__store`, with what it returns. -/
def store (p : Properties) (filepath : String) (j : StdMap String) : Properties × Bool :=
  if p.writable filepath then ({ p with file := Function.update p.file filepath (.object j) }, true) else (p, false)

/-- `__set` -/
def setKey (p : Properties) (key val : String) : Properties × Bool :=
  p.store p.propsFilename ((p.load p.propsFilename).insert key val)

/-- `__get` -/
def getKey (p : Properties) (key filepath : String) : String := ((p.load filepath).lookup key).getD ""

/-- `_apply_defaults_if_needed`; it also reads the current value of each key, which it does not use. -/
def applyDefaultsIfNeeded (p : Properties) (force : Bool) : Properties :=
  let j := p.load p.defaultPropsFilename
  j.order.foldl (fun p key =>
    let defaultVal := p.getKey key p.defaultPropsFilename
    if force then (p.setKey key defaultVal).1
    -- the source looks for the key among the defaults that it has the key from
    else if key ∉ j then (p.setKey key defaultVal).1
    else p) p

def setDefaultPropsFilepath (p : Properties) (filepath : String) : Properties :=
  let p := { p with defaultPropsFilename := filepath }
  let ver := p.getKey "version" p.propsFilename
  let defaultVer := p.getKey "version" p.defaultPropsFilename
  p.applyDefaultsIfNeeded (ver ≠ defaultVer)

/-- The properties of the current file. -/
def current (p : Properties) : StdMap String := (p.file p.propsFilename).props

def version (m : StdMap String) : String := (m.lookup "version").getD ""

/-- What is to become of the current properties when defaults are applied. -/
structure Merged (defaults before after : StdMap String) : Prop where
  present : ∀ k ∈ defaults, k ∈ after
  kept : version before = version defaults → ∀ k ∈ before, after.lookup k = before.lookup k
  filled : version before = version defaults → ∀ k ∈ defaults, k ∉ before → after.lookup k = defaults.lookup k
  reset : version before ≠ version defaults → ∀ k ∈ defaults, after.lookup k = defaults.lookup k
  others : ∀ k ∉ defaults, after.lookup k = before.lookup k

/-- Both files can be read, the default file as the given defaults. -/
structure Readable (p : Properties) (defaults : StdMap String) : Prop where
  defaults : p.file p.defaultPropsFilename = .object defaults
  current : p.file p.propsFilename ≠ .broken

theorem Readable.load_current (h : p.Readable defaults) : p.load p.propsFilename = p.current := by
  rw [load, Properties.current]
  cases hf : p.file p.propsFilename with
  | missing => rfl
  | broken => exact absurd hf h.current
  | object props => rfl

theorem Readable.load_defaults (h : p.Readable defaults) : p.load p.defaultPropsFilename = defaults := by
  rw [load, h.defaults]

/-- What a key is set to is in the current file, if that can be written; the default file is another one. -/
theorem Readable.setKey (h : p.Readable defaults) (hne : p.propsFilename ≠ p.defaultPropsFilename) (key val : String) :
    (p.setKey key val).1.Readable defaults ∧
      (p.setKey key val).1.current = (if p.writable p.propsFilename then p.current.insert key val else p.current) ∧
      (p.setKey key val).1.propsFilename = p.propsFilename ∧
      (p.setKey key val).1.defaultPropsFilename = p.defaultPropsFilename ∧
      (p.setKey key val).1.writable = p.writable := by
  rw [Properties.setKey, store, h.load_current]
  split
  · refine ⟨⟨?_, ?_⟩, ?_, rfl, rfl, rfl⟩
    · dsimp only
      rw [Function.update_of_ne hne.symm, h.defaults]
    · dsimp only
      rw [Function.update_self]
      exact nofun
    · dsimp only [Properties.current]
      rw [Function.update_self]
      rfl
  · exact ⟨h, rfl, rfl, rfl, rfl⟩

theorem applyDefaultsIfNeeded_false (h : p.Readable defaults) : p.applyDefaultsIfNeeded false = p := by
  rw [applyDefaultsIfNeeded, h.load_defaults]
  dsimp only
  have hround : ∀ l : List String, (∀ k ∈ l, k ∈ defaults) → l.foldl (fun p key =>
      if false = true then (p.setKey key (p.getKey key p.defaultPropsFilename)).1
      else if key ∉ defaults then (p.setKey key (p.getKey key p.defaultPropsFilename)).1 else p) p = p := by
    intro l hl
    induction l with
    | nil => rfl
    | cons k l ih =>
      rw [List.foldl_cons, if_neg Bool.false_ne_true, if_neg (not_not.mpr (hl k List.mem_cons_self))]
      exact ih fun j hj => hl j (List.mem_cons_of_mem k hj)
  exact hround _ fun k hk => StdMap.mem_order.mp hk

/-- Once the loop has set some keys, these have their defaults and no other key has changed. -/
theorem lookup_foldl_setKey (l : List String) (h : p.Readable defaults) (hne : p.propsFilename ≠ p.defaultPropsFilename)
    (hl : ∀ k ∈ l, k ∈ defaults) (hw : p.writable p.propsFilename = true) (key : String) :
    (l.foldl (fun p key => (p.setKey key (p.getKey key p.defaultPropsFilename)).1) p).current.lookup key =
      if key ∈ l then defaults.lookup key else p.current.lookup key := by
  induction l generalizing p with
  | nil => rfl
  | cons k l ih =>
    obtain ⟨hread, hcurrent, hprops, hdefault, hwritable⟩ := h.setKey hne k (p.getKey k p.defaultPropsFilename)
    rw [List.foldl_cons, ih hread (by rw [hprops, hdefault]; exact hne) (fun j hj => hl j (List.mem_cons_of_mem k hj))
      (by rw [hwritable, hprops]; exact hw), hcurrent, if_pos hw]
    by_cases hkey : key ∈ l
    · rw [if_pos hkey, if_pos (List.mem_cons_of_mem k hkey)]
    · rw [if_neg hkey]
      by_cases hk : key = k
      · subst hk
        obtain ⟨v, hv⟩ := Option.isSome_iff_exists.mp (AList.lookup_isSome.mpr (hl key List.mem_cons_self))
        rw [AList.lookup_insert, if_pos List.mem_cons_self, getKey, h.load_defaults, hv, Option.getD_some]
      · rw [AList.lookup_insert_ne hk, if_neg (by simp [hk, hkey])]

theorem foldl_setKey_of_not_writable (l : List String) (hw : p.writable p.propsFilename = false) :
    l.foldl (fun p key => (p.setKey key (p.getKey key p.defaultPropsFilename)).1) p = p := by
  induction l with
  | nil => rfl
  | cons k l ih =>
    have hset : (p.setKey k (p.getKey k p.defaultPropsFilename)).1 = p := by
      rw [setKey, store, hw]
      rfl
    rw [List.foldl_cons, hset, ih]

/-- The properties that have the defaults' version are left as they are. -/
theorem setDefaultPropsFilepath_of_version_eq (hdefaults : p.file filepath = .object defaults)
    (hcurrent : p.file p.propsFilename ≠ .broken) (hver : version p.current = version defaults) :
    (p.setDefaultPropsFilepath filepath).current = p.current := by
  have h : Readable { p with defaultPropsFilename := filepath } defaults := ⟨hdefaults, hcurrent⟩
  have hsame : getKey { p with defaultPropsFilename := filepath } "version" p.propsFilename =
      getKey { p with defaultPropsFilename := filepath } "version" filepath := by
    rw [getKey, getKey, h.load_current, h.load_defaults]
    exact hver
  rw [setDefaultPropsFilepath]
  dsimp only
  rw [hsame, decide_eq_false (not_not.mpr rfl), applyDefaultsIfNeeded_false h]
  rfl

/-- With another version every default is written, if the current file can be written at all. -/
theorem lookup_setDefaultPropsFilepath (hdefaults : p.file filepath = .object defaults)
    (hcurrent : p.file p.propsFilename ≠ .broken) (hver : version p.current ≠ version defaults) (key : String) :
    (p.setDefaultPropsFilepath filepath).current.lookup key =
      if p.writable p.propsFilename ∧ key ∈ defaults then defaults.lookup key else p.current.lookup key := by
  have h : Readable { p with defaultPropsFilename := filepath } defaults := ⟨hdefaults, hcurrent⟩
  have hne : p.propsFilename ≠ filepath := by
    intro heq
    rw [Properties.current, heq, hdefaults] at hver
    exact hver rfl
  have hdiffer : getKey { p with defaultPropsFilename := filepath } "version" p.propsFilename ≠
      getKey { p with defaultPropsFilename := filepath } "version" filepath := by
    rw [getKey, getKey, h.load_current, h.load_defaults]
    exact hver
  rw [setDefaultPropsFilepath]
  dsimp only
  rw [decide_eq_true hdiffer, applyDefaultsIfNeeded, h.load_defaults]
  simp only [if_true]
  cases hw : p.writable p.propsFilename with
  | true =>
    have hkeys : ∀ k ∈ defaults.order, k ∈ defaults := fun k hk => StdMap.mem_order.mp hk
    rw [lookup_foldl_setKey _ h hne hkeys hw]
    simp only [StdMap.mem_order, true_and]
    rfl
  | false =>
    rw [foldl_setKey_of_not_writable (p := { p with defaultPropsFilename := filepath }) _ hw]
    rw [if_neg fun hand => Bool.false_ne_true hand.1]
    rfl

/-- The defaults are merged into the current properties exactly if, with the version of the defaults, no default is
missing among these; and, with another version, if the file can be written, or is as it has to be. -/
theorem defaults_merged_iff (hdefaults : p.file filepath = .object defaults) (hcurrent : p.file p.propsFilename ≠ .broken) :
    Merged defaults p.current (p.setDefaultPropsFilepath filepath).current ↔
      if version p.current = version defaults then ∀ k ∈ defaults, k ∈ p.current
      else p.writable p.propsFilename = true ∨ ∀ k ∈ defaults, p.current.lookup k = defaults.lookup k := by
  split
  next hver =>
    rw [setDefaultPropsFilepath_of_version_eq hdefaults hcurrent hver]
    constructor
    · exact fun h => h.present
    · intro h
      exact ⟨h, fun _ _ _ => rfl, fun _ k hk hmissing => absurd (h k hk) hmissing, fun hne => absurd hver hne,
        fun _ _ => rfl⟩
  next hver =>
    have hlookup := lookup_setDefaultPropsFilepath hdefaults hcurrent hver
    constructor
    · intro h
      cases hw : p.writable p.propsFilename with
      | true => exact .inl rfl
      | false =>
        refine .inr fun k hk => ?_
        rw [← h.reset hver k hk, hlookup, hw, if_neg fun hand => Bool.false_ne_true hand.1]
    · intro h
      have hreset : ∀ k ∈ defaults, (p.setDefaultPropsFilepath filepath).current.lookup k = defaults.lookup k := by
        intro k hk
        rw [hlookup]
        split
        · rfl
        next hnot => exact h.elim (fun hw => absurd ⟨hw, hk⟩ hnot) fun hsame => hsame k hk
      refine ⟨fun k hk => ?_, fun heq => absurd heq hver, fun heq => absurd heq hver, fun _ => hreset, fun k hk => ?_⟩
      · rw [← AList.lookup_isSome, hreset k hk, AList.lookup_isSome]
        exact hk
      · rw [hlookup, if_neg fun hand => hk hand.2]

/-- The files of a device whose current properties have been written before the defaults got a key. -/
def beforeNewDefault : Properties where
  propsFilename := "props"
  defaultPropsFilename := ""
  file
    | "props" => .object (AList.singleton "version" "1")
    | "props.default" => .object ((AList.singleton "version" "1").insert "mode" "a")
    | _ => .missing
  writable _ := true

/-- A file that does not exist yet gets all defaults. -/
theorem defaults_merged_missing :
    Merged ((AList.singleton "version" "1").insert "mode" "a") ∅
      (setDefaultPropsFilepath { beforeNewDefault with propsFilename := "new" } "props.default").current :=
  (defaults_merged_iff (p := { beforeNewDefault with propsFilename := "new" }) rfl nofun).mpr (by
    rw [if_neg (by decide)]
    exact .inl rfl)

/-- A default that is new while the version is not. -/
theorem not_defaults_merged : ¬ ∀ (p : Properties) (filepath : String) (defaults : StdMap String),
    p.file filepath = .object defaults → p.file p.propsFilename ≠ .broken → p.writable p.propsFilename = true →
      Merged defaults p.current (p.setDefaultPropsFilepath filepath).current := by
  intro h
  have hmerged := h beforeNewDefault "props.default" _ rfl nofun rfl
  have hsame : (beforeNewDefault.setDefaultPropsFilepath "props.default").current = beforeNewDefault.current :=
    setDefaultPropsFilepath_of_version_eq rfl nofun (by decide)
  have hmem := hmerged.present "mode" (by decide)
  rw [hsame] at hmem
  exact absurd hmem (by decide)

end Properties
end CloudAgent.Utils
