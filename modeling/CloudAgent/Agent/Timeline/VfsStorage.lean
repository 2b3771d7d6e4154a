import CloudAgent.Agent.Timeline
import CloudAgent.Utils.Date.Reference
import Mathlib.Data.List.AList

/-! The timed storage in a directory: a period is stored in the file that is named after it. -/
namespace CloudAgent.Agent
open Utils

/-- `timed_storage::item`. -/
structure Item extends Period where
  data : List UInt8 := []
  deriving DecidableEq, Repr

/-- The files of a directory and the bytes that they hold. -/
abbrev Directory := AList fun _ : List Char => List UInt8

namespace VfsStorage

/-- `_period_from_filename`. -/
def periodFromFilename (date : DateLibrary) (filename : List Char) : Option Period :=
  match stringSplit '_' filename [] with
  | [first, second] =>
    let p : Period := ⟨Time.fromIso date first, Time.fromIso date second⟩
    if p.beginTime = Time.null ∨ p.endTime = Time.null then none else some p
  | _ => none

/-- `_filename_from_period`. -/
def filenameFromPeriod (date : DateLibrary) (p : Period) : Option (List Char) :=
  if p.beginTime = Time.null ∨ p.endTime = Time.null then none
  else some (Time.toIso date p.beginTime ++ '_' :: Time.toIso date p.endTime)

/-- `vfs_storage::list`, for the entries in the order in which the directory is iterated. -/
def list (date : DateLibrary) (entries : List (List Char)) (start stop : Time) : List Item :=
  entries.filterMap fun filename => (periodFromFilename date filename).bind fun p =>
    if p.intersects (Period.make start stop) then some { p with } else none

/-- `vfs_storage::load`, which reads the whole file. -/
def load (date : DateLibrary) (dir : Directory) (item : Item) : Bool × Item :=
  match filenameFromPeriod date (Period.make item.beginTime item.endTime) with
  | none => (false, item)
  | some filename =>
    match dir.lookup filename with
    | none => (false, item)
    | some data => (true, { item with data })

/-- `vfs_storage::store`, which replaces what the file held before. -/
def store (date : DateLibrary) (dir : Directory) (i : Item) : Bool × Directory :=
  match filenameFromPeriod date (Period.make i.beginTime i.endTime) with
  | none => (false, dir)
  | some filename => (true, dir.insert filename i.data)

/-- One store call after another. -/
def storeAll (date : DateLibrary) (dir : Directory) (items : List Item) : Directory :=
  items.foldl (fun dir i => (store date dir i).2) dir

/-! ### Names -/

/-- A period of whole microseconds after the epoch and before 2262. -/
def Storable (p : Period) : Prop :=
  Time.null < p.beginTime ∧ p.beginTime < p.endTime ∧ Time.InRange p.endTime ∧
    Time.floorMicroseconds p.beginTime = p.beginTime ∧ Time.floorMicroseconds p.endTime = p.endTime

instance (p : Period) : Decidable (Storable p) := by unfold Storable; infer_instance

variable {date : DateLibrary} {dir : Directory} {p q : Period} {i : Item} {items : List Item}

namespace Storable

theorem begin_ne_null (h : Storable p) : p.beginTime ≠ Time.null := h.1.ne'

theorem end_ne_null (h : Storable p) : p.endTime ≠ Time.null := (h.1.trans h.2.1).ne'

theorem begin_inRange (h : Storable p) : Time.InRange p.beginTime := ⟨h.1.le, h.2.1.trans h.2.2.1.2⟩

theorem make_eq (h : Storable p) : Period.make p.beginTime p.endTime = p := by
  simp only [Period.make, h.end_ne_null, if_false]

end Storable

/-- The name of the file of a period. -/
def filename (date : DateLibrary) (p : Period) : List Char :=
  Time.toIso date p.beginTime ++ '_' :: Time.toIso date p.endTime

theorem filenameFromPeriod_eq (date : DateLibrary) (h : Storable p) :
    filenameFromPeriod date p = some (filename date p) := by
  simp only [filenameFromPeriod, h.begin_ne_null, h.end_ne_null, or_self, if_false, filename]

/-- The period is read back from the name of its file. -/
theorem periodFromFilename_filename (hdate : date.Documented) (h : Storable p) :
    periodFromFilename date (filename date p) = some p := by
  have hb := h.begin_inRange
  have he := h.2.2.1
  have hsplit : stringSplit '_' (filename date p) [] =
      [Time.toIso date p.beginTime, Time.toIso date p.endTime] :=
    stringSplit_two [] (Time.not_mem_toIso hdate hb) (Time.not_mem_toIso hdate he)
      (Time.toIso_ne_nil hdate he)
  unfold periodFromFilename
  rw [hsplit]
  simp only [Time.fromIso_toIso hdate hb, Time.fromIso_toIso hdate he, h.2.2.2.1, h.2.2.2.2,
    h.begin_ne_null, h.end_ne_null, or_self, if_false]

/-- Periods with the same file are the same. -/
theorem filename_injective (hdate : date.Documented) (hp : Storable p) (hq : Storable q)
    (h : filename date p = filename date q) : p = q := by
  have hread := periodFromFilename_filename hdate hp
  rw [h, periodFromFilename_filename hdate hq] at hread
  exact (Option.some.inj hread).symm

/-! ### Stores -/

theorem store_eq (dir : Directory) (h : Storable i.toPeriod) :
    store date dir i = (true, dir.insert (filename date i.toPeriod) i.data) := by
  simp only [store, h.make_eq, filenameFromPeriod_eq date h]

theorem storeAll_cons (dir : Directory) (h : Storable i.toPeriod) (items : List Item) :
    storeAll date dir (i :: items) = storeAll date (dir.insert (filename date i.toPeriod) i.data) items := by
  rw [storeAll, List.foldl_cons, store_eq dir h]
  rfl

theorem mem_storeAll (hitems : ∀ i ∈ items, Storable i.toPeriod) {name : List Char} :
    name ∈ storeAll date dir items ↔ name ∈ dir ∨ ∃ i ∈ items, filename date i.toPeriod = name := by
  induction items generalizing dir with
  | nil => simp [storeAll]
  | cons i items ih =>
    have hi := hitems i List.mem_cons_self
    rw [storeAll_cons dir hi, ih fun j hj => hitems j (List.mem_cons_of_mem _ hj), AList.mem_insert]
    simp only [List.mem_cons, exists_eq_or_imp]
    rw [← or_assoc]
    exact or_congr_left (by rw [or_comm, eq_comm])

/-- Stores of other periods leave a file alone. -/
theorem lookup_storeAll_of_ne {name : List Char} (hitems : ∀ i ∈ items, Storable i.toPeriod)
    (hne : ∀ i ∈ items, filename date i.toPeriod ≠ name) :
    (storeAll date dir items).lookup name = dir.lookup name := by
  induction items generalizing dir with
  | nil => rfl
  | cons i items ih =>
    have hi := hitems i List.mem_cons_self
    rw [storeAll_cons dir hi, ih (fun j hj => hitems j (List.mem_cons_of_mem _ hj))
      fun j hj => hne j (List.mem_cons_of_mem _ hj)]
    exact AList.lookup_insert_ne (hne i List.mem_cons_self).symm

theorem lookup_storeAll_last (dir : Directory) (hdate : date.Documented) {before after : List Item}
    (hitems : ∀ r ∈ before ++ i :: after, Storable r.toPeriod)
    (hlast : ∀ r ∈ after, r.toPeriod ≠ i.toPeriod) :
    (storeAll date dir (before ++ i :: after)).lookup (filename date i.toPeriod) = some i.data := by
  have hi : Storable i.toPeriod := hitems i (by simp)
  have hafter : ∀ r ∈ after, Storable r.toPeriod := fun r hr => hitems r (by simp [hr])
  have hsplit : storeAll date dir (before ++ i :: after) =
      storeAll date (storeAll date dir before) (i :: after) := List.foldl_append
  rw [hsplit, storeAll_cons _ hi, lookup_storeAll_of_ne hafter, AList.lookup_insert]
  intro r hr hname
  exact hlast r hr (filename_injective hdate (hafter r hr) hi hname)

/-! ### Listing and loading -/

/-- What is listed for an entry is its period, if it intersects the range. -/
theorem list_map_toPeriod (date : DateLibrary) (entries : List (List Char)) (start stop : Time) :
    (list date entries start stop).map Item.toPeriod =
      (entries.filterMap (periodFromFilename date)).filter (·.intersects (Period.make start stop)) := by
  induction entries with
  | nil => rfl
  | cons name entries ih =>
    have ih : (entries.filterMap fun filename => (periodFromFilename date filename).bind fun p =>
        if p.intersects (Period.make start stop) then some ({ p with } : Item) else none).map Item.toPeriod =
          (entries.filterMap (periodFromFilename date)).filter (·.intersects (Period.make start stop)) := ih
    unfold list
    cases hname : periodFromFilename date name with
    | none =>
      rw [List.filterMap_cons_none (by simp [hname]), List.filterMap_cons_none hname, ih]
    | some p =>
      rw [List.filterMap_cons_some hname, List.filter_cons]
      by_cases hint : p.intersects (Period.make start stop) = true
      · rw [List.filterMap_cons_some (b := { p with }) (by simp [hname, hint]), List.map_cons, ih,
          if_pos hint]
      · rw [List.filterMap_cons_none (by simp [hname, hint]), ih, if_neg hint]

/-- The entries of a directory to which only stores have added names of periods. -/
theorem mem_periods (hdate : date.Documented) (hforeign : ∀ name ∈ dir, periodFromFilename date name = none)
    (hitems : ∀ i ∈ items, Storable i.toPeriod) {name : List Char} (hname : name ∈ storeAll date dir items) :
    periodFromFilename date name = none ∨ ∃ i ∈ items, filename date i.toPeriod = name ∧
      periodFromFilename date name = some i.toPeriod := by
  obtain hold | ⟨i, hi, hfile⟩ := (mem_storeAll hitems).mp hname
  · exact Or.inl (hforeign name hold)
  · exact Or.inr ⟨i, hi, hfile, hfile ▸ periodFromFilename_filename hdate (hitems i hi)⟩

/-- No period has two names. -/
theorem nodup_periods (hdate : date.Documented) (hforeign : ∀ name ∈ dir, periodFromFilename date name = none)
    (hitems : ∀ i ∈ items, Storable i.toPeriod) {entries : List (List Char)}
    (hentries : entries.Perm (storeAll date dir items).keys) :
    (entries.filterMap (periodFromFilename date)).Nodup := by
  have hmem : ∀ name ∈ entries, name ∈ storeAll date dir items := fun name hname =>
    AList.mem_keys.mpr (hentries.mem_iff.mp hname)
  have hnodup : entries.Nodup := hentries.nodup_iff.mpr (AList.keys_nodup _)
  refine List.pairwise_filterMap.mpr (hnodup.imp_of_mem fun ha hb hne p hp q hq hpq => ?_)
  obtain hnone | ⟨i, -, hi, hpi⟩ := mem_periods hdate hforeign hitems (hmem _ ha)
  · rw [hnone] at hp
    cases hp
  · obtain hnone | ⟨j, -, hj, hqj⟩ := mem_periods hdate hforeign hitems (hmem _ hb)
    · rw [hnone] at hq
      cases hq
    · rw [hpi] at hp
      rw [hqj] at hq
      apply hne
      rw [← hi, ← hj, Option.some.inj hp, Option.some.inj hq, hpq]

/-- The periods of the names are those that were stored. -/
theorem mem_filterMap_periods (hdate : date.Documented)
    (hforeign : ∀ name ∈ dir, periodFromFilename date name = none) (hitems : ∀ i ∈ items, Storable i.toPeriod)
    {entries : List (List Char)} (hentries : entries.Perm (storeAll date dir items).keys) (p : Period) :
    p ∈ entries.filterMap (periodFromFilename date) ↔ ∃ i ∈ items, i.toPeriod = p := by
  rw [List.mem_filterMap]
  constructor
  · rintro ⟨name, hname, hp⟩
    obtain hnone | ⟨i, hi, -, hpi⟩ := mem_periods hdate hforeign hitems
      (AList.mem_keys.mpr (hentries.mem_iff.mp hname))
    · rw [hnone] at hp
      cases hp
    · exact ⟨i, hi, Option.some.inj (hpi.symm.trans hp)⟩
  · rintro ⟨i, hi, rfl⟩
    refine ⟨filename date i.toPeriod, ?_, periodFromFilename_filename hdate (hitems i hi)⟩
    exact hentries.mem_iff.mpr (AList.mem_keys.mp ((mem_storeAll hitems).mpr (Or.inr ⟨i, hi, rfl⟩)))

/-- After any sequence of stores into a directory whose other names are not periods, every period
that was stored and intersects the range is listed once, and nothing else is; an item with a stored
period is loaded with the data of the last store of that period. -/
theorem storeAll_faithful (date : DateLibrary) (hdate : date.Documented) (dir : Directory)
    (hforeign : ∀ name ∈ dir, periodFromFilename date name = none) (items : List Item)
    (hitems : ∀ i ∈ items, Storable i.toPeriod) :
    (∀ (entries : List (List Char)), entries.Perm (storeAll date dir items).keys →
      ∀ start stop : Time, stop ≠ Time.null →
        ((list date entries start stop).map Item.toPeriod).Nodup ∧
          ∀ p, p ∈ (list date entries start stop).map Item.toPeriod ↔
            (∃ i ∈ items, i.toPeriod = p) ∧ p.beginTime < stop ∧ start < p.endTime) ∧
      ∀ (before after : List Item) (s : Item), items = before ++ s :: after →
        (∀ r ∈ after, r.toPeriod ≠ s.toPeriod) → ∀ item : Item, item.toPeriod = s.toPeriod →
          load date (storeAll date dir items) item = (true, s) := by
  refine ⟨fun entries hentries start stop hstop => ?_, fun before after s hsplit hlast item hitem => ?_⟩
  · rw [list_map_toPeriod]
    refine ⟨(nodup_periods hdate hforeign hitems hentries).filter _, fun p => ?_⟩
    rw [List.mem_filter, mem_filterMap_periods hdate hforeign hitems hentries]
    refine and_congr_right ?_
    rintro ⟨i, hi, rfl⟩
    rw [Period.intersects_make_iff (hitems i hi).end_ne_null, Period.make_endTime hstop]
  · subst hsplit
    have hs : Storable s.toPeriod := hitems s (by simp)
    have hname : filenameFromPeriod date (Period.make item.beginTime item.endTime) =
        some (filename date s.toPeriod) := by
      rw [hitem, hs.make_eq, filenameFromPeriod_eq date hs]
    have hlookup := lookup_storeAll_last dir hdate hitems hlast
    obtain ⟨p, data⟩ := item
    obtain rfl : p = s.toPeriod := hitem
    simp only [load, hname, hlookup]

/-- Two overlapping recordings, and the first one once more; a file with another name stays away. -/
theorem storeAll_faithful_two :
    let dir := (∅ : Directory).insert "notes.txt".toList [9]
    let first : Item := { beginTime := 1000000, endTime := 3000000, data := [1] }
    let second : Item := { beginTime := 2000000, endTime := 4000000, data := [2] }
    let again : Item := { first with data := [3] }
    load .reference (storeAll .reference dir [first, second, again]) first = (true, again) := by
  intro dir first second again
  exact (storeAll_faithful .reference reference_documented dir (by decide) [first, second, again]
    (by decide)).2 [first, second] [] again rfl (by decide) first rfl

end VfsStorage
end CloudAgent.Agent
