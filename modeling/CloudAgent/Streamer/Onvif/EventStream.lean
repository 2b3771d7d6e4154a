import CloudAgent.Lib.StdMap
import CloudAgent.Proto.Objects
import CloudAgent.Streamer.Onvif.MetadataSink
import Mathlib.Data.List.Induction
import Mathlib.Logic.Function.Basic

/-! From ONVIF events to events of the cloud: which mapping applies, whether the event is active, and whether it is
notified. -/
namespace CloudAgent.Streamer.Onvif

/-- `event_object` with the members that only this stream fills. -/
structure MetaEvent extends Proto.EventObject where
  metaData : StdMap String
  metaFile : List Char

/-- `onvif_topic_to_vxg_event_map`; the callback may change the event, and tells whether it is notified. -/
structure TopicMapping where
  onvifTopic : String
  minInterval : Duration := 0
  onvifStateDataItem : String
  onvifStateDataItemActiveValue : String
  vxgEventConfig : Proto.EventConfig
  extProtoEventParseCb : Option (MetaEvent → Event → MetaEvent × Bool) := none

/-- `event_stream`; a topic without an entry in `last_onvif_event_time_` counts as the epoch. -/
structure EventStream where
  eventsMap : StdMap TopicMapping
  lastOnvifEventTime : String → Time

namespace TopicMapping

/-- The data item has the mapped state name and the mapped active value. -/
def activatedBy (mapping : TopicMapping) (d : SimpleItem) : Bool :=
  d.name = mapping.onvifStateDataItem && mapping.onvifStateDataItemActiveValue = d.value

def sourceItem (event : MetaEvent) (s : SimpleItem) : MetaEvent :=
  { event with metaData := event.metaData.insert s.name s.value }

def dataItem (mapping : TopicMapping) (event : MetaEvent) (d : SimpleItem) : MetaEvent :=
  { event with metaData := event.metaData.insert d.name d.value, active := mapping.activatedBy d }

/-- The event before the callback sees it. -/
def toMetaEvent (mapping : TopicMapping) (onvifEvent : Event) : MetaEvent :=
  let event : MetaEvent :=
    { time := onvifEvent.time
      event := mapping.vxgEventConfig.event
      customEventName := mapping.vxgEventConfig.customEventName
      metaData := (∅ : StdMap String).insert "onvif-event-topic" onvifEvent.topic
      metaFile := [] }
  let event := onvifEvent.dataItems.foldl mapping.dataItem (onvifEvent.sourceItems.foldl sourceItem event)
  { event with metaFile := onvifEvent.rawBody }

end TopicMapping

namespace EventStream

/-- `_find_mapping_by_topic`. -/
def findMappingByTopic (s : EventStream) (topic : String) : Option TopicMapping :=
  ((s.eventsMap.findKey (·.onvifTopic = topic)).or (s.eventsMap.findKey (·.onvifTopic = "*"))).bind s.eventsMap.lookup

/-- Less than the minimal interval has passed since the last active event of the topic. -/
def tooEarly (s : EventStream) (mapping : TopicMapping) (onvifEvent : Event) : Bool :=
  mapping.minInterval ≠ 0 && onvifEvent.time - s.lastOnvifEventTime onvifEvent.topic < mapping.minInterval

/-- The end of `on_onvif_event`: the callback, if any, and `notify`. -/
def notified (mapping : TopicMapping) (onvifEvent : Event) : Option MetaEvent :=
  match mapping.extProtoEventParseCb with
  | none => some (mapping.toMetaEvent onvifEvent)
  | some cb =>
    let answer := cb (mapping.toMetaEvent onvifEvent) onvifEvent
    if answer.2 then some answer.1 else none

/-- `on_onvif_event`, with the event that it notifies. -/
def onOnvifEvent (s : EventStream) (onvifEvent : Event) : EventStream × Option MetaEvent :=
  if onvifEvent.topic ≠ "" ∧ onvifEvent.time ≠ Utils.Time.null then
    match s.findMappingByTopic onvifEvent.topic with
    | none => (s, none)
    | some mapping =>
      if (mapping.toMetaEvent onvifEvent).active then
        if s.tooEarly mapping onvifEvent then (s, none)
        else
          ({ s with lastOnvifEventTime := Function.update s.lastOnvifEventTime onvifEvent.topic onvifEvent.time },
            notified mapping onvifEvent)
      else (s, notified mapping onvifEvent)
  else (s, none)

/-! ### Activity -/

/-- The event is active exactly if some data item activates it. -/
def ReportsActivity (mapping : TopicMapping) (e : Event) : Prop :=
  (mapping.toMetaEvent e).active = true ↔ ∃ d ∈ e.dataItems, mapping.activatedBy d = true

/-- The same event with its data items in any order, among unrelated ones. -/
structure Rearranged (mapping : TopicMapping) (e e' : Event) : Prop where
  topic : e'.topic = e.topic
  time : e'.time = e.time
  items : ∃ more : List SimpleItem, (∀ d ∈ more, d.name ≠ mapping.onvifStateDataItem) ∧
    e'.dataItems.Perm (e.dataItems ++ more)

/-- Both events are active exactly if they should be, so both or none; and where the callback, if there is one, gives
the same answer, both or none are notified, and the stream is the same afterwards. -/
structure OrderIndependent (s : EventStream) (mapping : TopicMapping) (e e' : Event) : Prop where
  reports : ReportsActivity mapping e
  reports' : ReportsActivity mapping e'
  active : (mapping.toMetaEvent e').active = (mapping.toMetaEvent e).active
  notify : (∀ cb ∈ mapping.extProtoEventParseCb,
      (cb (mapping.toMetaEvent e') e').2 = (cb (mapping.toMetaEvent e) e).2) →
    (s.onOnvifEvent e').2.isSome = (s.onOnvifEvent e).2.isSome
  state : (s.onOnvifEvent e').1 = (s.onOnvifEvent e).1

/-- No data item activates the event, or the last one does. -/
def LastDecides (mapping : TopicMapping) (items : List SimpleItem) : Prop :=
  (∀ d ∈ items, mapping.activatedBy d = false) ∨ ∃ d ∈ items.getLast?, mapping.activatedBy d = true

variable {s : EventStream} {mapping : TopicMapping} {e e' : Event} {items : List SimpleItem}

/-- Each data item overwrites what the ones before it said. -/
theorem active_foldl_dataItem (mapping : TopicMapping) (items : List SimpleItem) (event : MetaEvent) :
    (items.foldl mapping.dataItem event).active = (items.getLast?.map mapping.activatedBy).getD event.active := by
  induction items using List.reverseRecOn with
  | nil => rfl
  | append_singleton items d _ => simp [TopicMapping.dataItem]

theorem active_foldl_sourceItem (items : List SimpleItem) (event : MetaEvent) :
    (items.foldl TopicMapping.sourceItem event).active = event.active := by
  induction items generalizing event with
  | nil => rfl
  | cons d items ih => exact ih _

/-- The last data item alone decides. -/
theorem toMetaEvent_active (mapping : TopicMapping) (e : Event) :
    (mapping.toMetaEvent e).active = e.dataItems.getLast?.any mapping.activatedBy := by
  have hlast (o : Option SimpleItem) : (o.map mapping.activatedBy).getD false = o.any mapping.activatedBy := by
    cases o <;> rfl
  simp only [TopicMapping.toMetaEvent, active_foldl_dataItem, active_foldl_sourceItem]
  exact hlast _

theorem reportsActivity_iff (mapping : TopicMapping) (e : Event) :
    ReportsActivity mapping e ↔ LastDecides mapping e.dataItems := by
  rw [ReportsActivity, LastDecides, toMetaEvent_active, Option.any_eq_true]
  constructor
  · intro h
    by_cases hex : ∃ d ∈ e.dataItems, mapping.activatedBy d = true
    · exact .inr (h.mpr hex)
    · exact .inl fun d hd => Bool.eq_false_iff.mpr fun hactive => hex ⟨d, hd, hactive⟩
  · rintro (hnone | hlast)
    · have hno : ¬ ∃ d ∈ e.dataItems, mapping.activatedBy d = true := by
        rintro ⟨d, hd, hactive⟩
        rw [hnone d hd] at hactive
        cases hactive
      refine iff_of_false ?_ hno
      rintro ⟨d, hd, hactive⟩
      exact hno ⟨d, List.mem_of_getLast? hd, hactive⟩
    · refine iff_of_true hlast ?_
      obtain ⟨d, hd, hactive⟩ := hlast
      exact ⟨d, List.mem_of_getLast? hd, hactive⟩

/-- An order of the items and unrelated items are no reason to be active or not. -/
theorem Rearranged.exists_iff (h : Rearranged mapping e e') :
    (∃ d ∈ e'.dataItems, mapping.activatedBy d = true) ↔ ∃ d ∈ e.dataItems, mapping.activatedBy d = true := by
  obtain ⟨more, hmore, hperm⟩ := h.items
  constructor
  · rintro ⟨d, hd, hactive⟩
    obtain hmem | hmem := List.mem_append.mp (hperm.mem_iff.mp hd)
    · exact ⟨d, hmem, hactive⟩
    · simp [TopicMapping.activatedBy, hmore d hmem] at hactive
  · rintro ⟨d, hd, hactive⟩
    exact ⟨d, hperm.mem_iff.mpr (List.mem_append_left more hd), hactive⟩

/-! ### The decision to notify -/

theorem onOnvifEvent_of_find (hfind : s.findMappingByTopic e.topic = some mapping) :
    s.onOnvifEvent e =
      if e.topic ≠ "" ∧ e.time ≠ Utils.Time.null then
        if (mapping.toMetaEvent e).active then
          if s.tooEarly mapping e then (s, none)
          else
            ({ s with lastOnvifEventTime := Function.update s.lastOnvifEventTime e.topic e.time }, notified mapping e)
        else (s, notified mapping e)
      else (s, none) := by
  rw [onOnvifEvent, hfind]

theorem notified_isSome (h : ∀ cb ∈ mapping.extProtoEventParseCb,
    (cb (mapping.toMetaEvent e') e').2 = (cb (mapping.toMetaEvent e) e).2) :
    (notified mapping e').isSome = (notified mapping e).isSome := by
  rw [notified, notified]
  cases hcb : mapping.extProtoEventParseCb with
  | none => rfl
  | some cb =>
    simp only [h cb hcb]
    split <;> rfl

theorem Rearranged.tooEarly (h : Rearranged mapping e e') (s : EventStream) :
    s.tooEarly mapping e' = s.tooEarly mapping e := by
  rw [EventStream.tooEarly, h.topic, h.time, EventStream.tooEarly]

/-- What is reported does not depend on the order of the data items and on unrelated ones exactly if the last item
activates each of the events that an item activates. -/
theorem orderIndependent_iff (hfind : s.findMappingByTopic e.topic = some mapping) (h : Rearranged mapping e e') :
    OrderIndependent s mapping e e' ↔ LastDecides mapping e.dataItems ∧ LastDecides mapping e'.dataItems := by
  rw [← reportsActivity_iff, ← reportsActivity_iff]
  constructor
  · intro hindependent
    exact ⟨hindependent.reports, hindependent.reports'⟩
  · rintro ⟨hreports, hreports'⟩
    have hactive : (mapping.toMetaEvent e').active = (mapping.toMetaEvent e).active :=
      Bool.eq_iff_iff.mpr (hreports'.trans (h.exists_iff.trans hreports.symm))
    have hfind' : s.findMappingByTopic e'.topic = some mapping := h.topic ▸ hfind
    refine ⟨hreports, hreports', hactive, fun hcb => ?_, ?_⟩
    all_goals rw [onOnvifEvent_of_find hfind, onOnvifEvent_of_find hfind', hactive, h.topic, h.time, h.tooEarly]
    · have hnotified := notified_isSome hcb
      split_ifs <;> first | rfl | exact hnotified
    · split_ifs <;> rfl

/-- A motion alarm is active while its item `State` is `true`. -/
def motionAlarm : TopicMapping where
  onvifTopic := "tns1:VideoSource/MotionAlarm"
  onvifStateDataItem := "State"
  onvifStateDataItemActiveValue := "true"
  vxgEventConfig := { event := .motion }

def onlyMotion : EventStream where
  eventsMap := (∅ : StdMap TopicMapping).insert "motion" motionAlarm
  lastOnvifEventTime _ := 0

def alarm (items : List SimpleItem) : Event where
  rawBody := []
  topic := "tns1:VideoSource/MotionAlarm"
  time := 1
  dataItems := items

theorem find_alarm (items : List SimpleItem) :
    onlyMotion.findMappingByTopic (alarm items).topic = some motionAlarm :=
  rfl

/-- An unrelated item before the one that activates the event. -/
theorem orderIndependent_last :
    OrderIndependent onlyMotion motionAlarm (alarm [⟨"State", "true"⟩])
      (alarm [⟨"Count", "1"⟩, ⟨"State", "true"⟩]) := by
  have h : Rearranged motionAlarm (alarm [⟨"State", "true"⟩]) (alarm [⟨"Count", "1"⟩, ⟨"State", "true"⟩]) :=
    ⟨rfl, rfl, [⟨"Count", "1"⟩], by decide, by decide⟩
  refine (orderIndependent_iff (find_alarm _) h).mpr ⟨?_, ?_⟩
  · exact .inr ⟨_, rfl, by decide⟩
  · exact .inr ⟨_, rfl, by decide⟩

/-- An unrelated item after the one that activates the event. -/
theorem not_orderIndependent_appended :
    Rearranged motionAlarm (alarm [⟨"State", "true"⟩]) (alarm [⟨"State", "true"⟩, ⟨"Count", "1"⟩]) ∧
      ¬ OrderIndependent onlyMotion motionAlarm (alarm [⟨"State", "true"⟩])
        (alarm [⟨"State", "true"⟩, ⟨"Count", "1"⟩]) := by
  refine ⟨⟨rfl, rfl, [⟨"Count", "1"⟩], by decide, by decide⟩, fun h => ?_⟩
  have hactive := h.active
  rw [toMetaEvent_active, toMetaEvent_active] at hactive
  revert hactive
  decide

end EventStream
end CloudAgent.Streamer.Onvif
