import CloudAgent.Proto.Objects

/-! What the device hands to the manager when it is created. It does not change while the agent runs. -/
namespace CloudAgent.Control
open Proto

/-- `media::stream`. The cloud knows it by its name, and so does the manager: `lookup_stream` gives
the same object for the same name. -/
structure MediaStream where
  cloudName : String
  recordNeedsSource : Bool
  named : cloudName ≠ ""

/-- `event_stream`, with the answer of its `get_events`. -/
structure EventStream where
  name : String
  events : Option (List EventConfig)

/-- The streams, the event streams (each has a name of its own) and the settings of
`profile::global` that the control side reads. `qosReportPeriod` is given where the report is sent as
an event. -/
structure Device where
  streams : List MediaStream
  eventStreams : List EventStream
  eventStreams_nodup : (eventStreams.map EventStream.name).Nodup
  qosReportPeriod : Option ℤ := none
  recordByEventUploadStep : Duration := seconds 15
  delayBetweenEventAndRecordsUploadStart : Duration := seconds 60
  defaultPreRecordTime : Duration := seconds 10
  defaultPostRecordTime : Duration := seconds 10

namespace Device

/-- `lookup_stream`. -/
def lookupStream (dev : Device) (name : String) : Option MediaStream :=
  dev.streams.find? (·.cloudName = name)

/-- `_lookup_event_stream`. -/
def lookupEventStream (dev : Device) (name : String) : Option EventStream :=
  dev.eventStreams.find? (·.name = name)

/-- `record_needs_source` of the stream with this name. -/
def recordNeedsSource (dev : Device) (name : String) : Bool :=
  (dev.lookupStream name).any MediaStream.recordNeedsSource

end Device
end CloudAgent.Control
