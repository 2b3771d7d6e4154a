import CloudAgent.Proto.Wire.Values

/-! The objects of the protocol, member by member: each list has the names that the source lists for
`to_json` and `from_json`, and the members that it documents and does not list. -/
namespace CloudAgent.Proto.Wire

/-! ### Kinds of members -/

def str (name : String) (dflt : String := unsetString) : Field := ⟨.field name text dflt (Or.inr fun _ => rfl)⟩

def num (name : String) (dflt : Int32 := unsetInt32) : Field := ⟨.field name int dflt (Or.inr fun _ => rfl)⟩

def long (name : String) : Field := ⟨.field name int64 Int64.minValue (Or.inr fun _ => rfl)⟩

def size (name : String) : Field := ⟨.field name uint64 0 (Or.inr fun _ => rfl)⟩

def real (name : String) : Field := ⟨.field name double unsetDouble (Or.inr fun _ => rfl)⟩

def bool (name : String) : Field := ⟨.field name flag false (Or.inr fun _ => rfl)⟩

def alter (name : String) : Field := ⟨.field name alterBool .bInvalid (Or.inr fun v => by cases v <;> rfl)⟩

/-- An enumeration is never unset; its default is what `null` is read as. -/
def enum {ε : Type} [DecidableEq ε] (name : String) (t : EnumTable ε) (dflt : ε)
    (h : t.ofJson .null = dflt := by decide) : Field :=
  ⟨.field name t.codec dflt (Or.inl (congrArg some h))⟩

def many {α : Type} (name : String) (c : Codec α) (dflt : List α := []) : Field :=
  ⟨.field name c.list dflt (Or.inr fun _ => rfl)⟩

/-- `std::pair<int, int>`. -/
def range (name : String) : Field := ⟨.field name (int.pair int) (0, 0) (Or.inr fun _ => rfl)⟩

/-- `std::tuple<int, int, int>`. -/
def levels (name : String) : Field := ⟨.field name (int.triple int int) (0, 0, 0) (Or.inr fun _ => rfl)⟩

def texts (name : String) : Field := ⟨.field name textMap [] (Or.inr fun _ => rfl)⟩

def anyJson (name : String) : Field := ⟨.field name json .null (Or.inl rfl)⟩

def object (name : String) (s : Schema) : Field := ⟨.field name s.codec (s.part.read .null) (Or.inl rfl)⟩

section lossless
variable (name : String)

@[simp] theorem str_lossless : (str name).part.Lossless :=
  Part.lossless_field name text unsetString (Or.inr fun _ => rfl)
    (fun v h => of_decide_eq_true (p := v = unsetString) h) fun _ _ => trivial

@[simp] theorem num_lossless : (num name).part.Lossless :=
  Part.lossless_field name int unsetInt32 (Or.inr fun _ => rfl) (fun v h => of_decide_eq_true (p := v = unsetInt32) h)
    fun _ _ => trivial

@[simp] theorem real_lossless : (real name).part.Lossless :=
  Part.lossless_field name double unsetDouble (Or.inr fun _ => rfl)
    (fun v h => of_decide_eq_true (p := v = unsetDouble) h) fun _ _ => trivial

@[simp] theorem long_lossless : (long name).part.Lossless :=
  Part.lossless_field name int64 Int64.minValue (Or.inr fun _ => rfl) (fun _ h => absurd h Bool.false_ne_true)
    fun _ _ => trivial

@[simp] theorem size_lossless : (size name).part.Lossless :=
  Part.lossless_field name uint64 0 (Or.inr fun _ => rfl) (fun _ h => absurd h Bool.false_ne_true) fun _ _ => trivial

@[simp] theorem bool_lossless : (bool name).part.Lossless :=
  Part.lossless_field name flag false (Or.inr fun _ => rfl) (fun _ h => absurd h Bool.false_ne_true) fun _ _ => trivial

@[simp] theorem alter_lossless : (alter name).part.Lossless :=
  Part.lossless_field name alterBool .bInvalid (Or.inr fun v => by cases v <;> rfl)
    (fun v h => of_decide_eq_true (p := v = .bInvalid) h) fun v h => of_decide_eq_false (p := v = .bInvalid) h

@[simp] theorem enum_lossless {ε : Type} [DecidableEq ε] {t : EnumTable ε} {dflt : ε} {h : t.ofJson .null = dflt}
    (ht : t.codec.Lossless) : (enum name t dflt h).part.Lossless :=
  Part.lossless_field name t.codec dflt (Or.inl (congrArg some h)) (fun _ h => absurd h Bool.false_ne_true)
    fun e _ => ht e

@[simp] theorem many_lossless {α : Type} {c : Codec α} {dflt : List α} (hc : c.Lossless) :
    (many name c dflt).part.Lossless :=
  Part.lossless_field name c.list dflt (Or.inr fun _ => rfl) (fun _ h => absurd h Bool.false_ne_true)
    fun vs _ => Codec.lossless_list hc vs

@[simp] theorem object_lossless {s : Schema} (hs : s.codec.Lossless) : (object name s).part.Lossless :=
  Part.lossless_field name s.codec (s.part.read .null) (Or.inl rfl) (fun _ h => absurd h Bool.false_ne_true)
    fun v _ => hs v

@[simp] theorem range_lossless : (range name).part.Lossless :=
  Part.lossless_field name (int.pair int) (0, 0) (Or.inr fun _ => rfl) (fun _ h => absurd h Bool.false_ne_true)
    fun _ _ => ⟨trivial, trivial⟩

@[simp] theorem levels_lossless : (levels name).part.Lossless :=
  Part.lossless_field name (int.triple int int) (0, 0, 0) (Or.inr fun _ => rfl)
    (fun _ h => absurd h Bool.false_ne_true) fun _ _ => ⟨trivial, trivial, trivial⟩

theorem str_kept (dflt : String) (v : String) (h : v ≠ unsetString) : (str name dflt).part.Kept v := by
  change if decide (v = unsetString) then _ else _
  rw [if_neg (by simpa using h)]
  trivial

theorem num_kept (dflt : Int32) (v : Int32) (h : v ≠ unsetInt32) : (num name dflt).part.Kept v := by
  change if decide (v = unsetInt32) then _ else _
  rw [if_neg (by simpa using h)]
  trivial

theorem anyJson_kept (v : Json) (h : v ≠ .arr []) : (anyJson name).part.Kept v := by
  change if isUnsetJson v then Json.null = v else True
  split
  · exact ((isUnsetJson_iff.mp ‹_›).resolve_right h).symm
  · trivial

@[simp] theorem texts_lossless : (texts name).part.Lossless :=
  Part.lossless_field name textMap [] (Or.inr fun _ => rfl) (fun _ h => absurd h Bool.false_ne_true)
    fun _ _ => trivial

end lossless

theorem at?_write_str (name dflt v : String) (j : Json) (k : String) :
    ((str name dflt).part.write v j).at? k = if k = name ∧ v ≠ unsetString then some (.str v) else j.at? k := by
  change (if decide (v = unsetString) then j else j.set name (.str v)).at? k = _
  by_cases hv : v = unsetString
  · simp [hv]
  · by_cases hk : k = name <;> simp [hv, hk]

theorem at?_write_num (name : String) (dflt v : Int32) (j : Json) (k : String) :
    ((num name dflt).part.write v j).at? k =
      if k = name ∧ v ≠ unsetInt32 then some (.int v.toInt) else j.at? k := by
  change (if decide (v = unsetInt32) then j else j.set name (.int v.toInt)).at? k = _
  by_cases hv : v = unsetInt32
  · simp [hv]
  · by_cases hk : k = name <;> simp [hv, hk]

/-! ### Capabilities -/

def capsVideoObject : Schema where
  fields := [many "streams" text, many "formats" videoFormat.codec, many "profiles" (videoFormat.codec.pair text),
    many "resolutions" (int.pair int), many "fps" double, bool "vbr",
    range "quality", many "gop" int, many "brt" int,
    many "vbr_brt" int, bool "smoothing"]
  distinct := by decide

def capsAudioObject : Schema where
  fields := [many "streams" text, many "formats" audioFormat.codec, many "brt" int, many "srt" double]
  distinct := by decide

def streamCaps : Schema where
  fields := [many "caps_video" capsVideoObject.codec, many "caps_audio" capsAudioObject.codec]
  distinct := by decide

def motionDetectionCaps : Schema where
  fields := [size "max_regions", enum "sensitivity" motionSensitivity .invalid,
    enum "region_shape" motionRegionShape .invalid]
  distinct := by decide

def videoCaps : Schema where
  fields := [many "vert_flip" mode.codec, many "horz_flip" mode.codec, many "tdn" text, many "ir_light" mode.codec,
    bool "brightness", bool "contrast", bool "saturation", bool "sharpness", many "nr_type" text,
    bool "nr_level", many "wb_type" text, bool "pwr_frequency"]
  distinct := by decide

/-- `statefull` and `internal_hidden` are not part of the protocol. -/
def eventCaps : Schema where
  fields := [bool "stream", bool "snapshot", bool "periodic", bool "trigger"]
  distinct := by decide

def audioCaps : Schema where
  fields := [alter "mic", alter "spkr", many "echo_cancel" mode.codec, alter "backward",
    many "backward_formats" audioFormat.codec, many "audio_file_formats" audioFileFormat.codec]
  distinct := by decide

def osdCaps : Schema where
  fields := [bool "system_id", bool "system_id_text", bool "time", many "time_format" timeFormat.codec, bool "date",
    many "date_format" text, many "font_size" text, many "font_color" (text.pair text),
    many "bkg_color" (text.pair text), bool "bkg_transp", many "alignment" text]
  distinct := by decide

/-! ### Settings -/

def videoStreamConfig : Schema where
  fields := [str "stream", enum "format" videoFormat .invalid, str "profile", num "horz", num "vert", real "fps",
    bool "vbr", num "quality", num "gop", num "brt", num "vbr_brt", num "smoothing"]
  distinct := by decide

def audioStreamConfig : Schema where
  fields := [str "stream", enum "format" audioFormat .invalid, num "brt", real "srt"]
  distinct := by decide

def streamConfig : Schema where
  fields := [many "video" videoStreamConfig.codec, many "audio" audioStreamConfig.codec]
  distinct := by decide

def motionRegion : Schema where
  fields := [str "region", str "map", size "sensitivity", bool "enabled"]
  distinct := by decide

def motionDetectionConfig : Schema where
  fields := [num "columns", num "rows", object "caps" motionDetectionCaps, many "regions" motionRegion.codec]
  distinct := by decide

def videoConfig : Schema where
  fields := [str "vert_flip", str "horz_flip", str "tdn", str "ir_light", num "brightness", num "contrast",
    num "saturation", num "sharpness", str "nr_type", num "nr_level", str "wb_type", num "pwr_frequency",
    object "caps" videoCaps]
  distinct := by decide

def wifiNetwork : Schema where
  fields := [str "ssid", num "signal", str "mac", many "encryption_caps" wifiEncryption.codec,
    enum "encryption" wifiEncryption .invalid, str "password"]
  distinct := by decide

def wifiConfig : Schema where
  fields := [many "networks" wifiNetwork.codec]
  distinct := by decide

def audioConfig : Schema where
  fields := [num "mic_gain", alter "mic_mute", num "spkr_vol", alter "spkr_mute", enum "echo_cancel" mode .invalid,
    object "caps" audioCaps]
  distinct := by decide

def ptzPreset : Schema where
  fields := [str "token", str "name", enum "action" ptzPresetAction .invalid]
  distinct := by decide

def ptzConfig : Schema where
  fields := [many "actions" ptzAction.codec, num "maximum_number_of_presets",
    many "presets" ptzPreset.codec]
  distinct := by decide

def ptzCommand : Schema where
  fields := [enum "action" ptzAction .invalid, num "tm"]
  distinct := by decide

def osdConfig : Schema where
  fields := [bool "system_id", str "system_id_text", bool "time", enum "time_format" timeFormat .invalid, bool "date",
    str "date_format", str "font_size", str "font_color", str "bkg_color", bool "bkg_transp", str "alignment",
    object "caps" osdCaps]
  distinct := by decide

def supportedStreamConfig : Schema where
  fields := [str "id", str "video", str "audio"]
  distinct := by decide

def supportedStreamsConfig : Schema where
  fields := [many "streams" supportedStreamConfig.codec, many "video_es" text, many "audio_es" text]
  distinct := by decide

def streamByEventCaps : Schema where
  fields := [num "pre_event_max", num "post_event_max"]
  distinct := by decide

def streamByEventConfig : Schema where
  fields := [str "stream_id", long "pre_event", long "post_event", object "caps" streamByEventCaps]
  distinct := by decide

def audioDetectionConfCaps : Schema where
  fields := [levels "level"]
  distinct := by decide

def audioDetectionConfig : Schema where
  fields := [num "level", num "length", object "caps" audioDetectionConfCaps]
  distinct := by decide

def directUploadUrlBase : Schema where
  fields := [enum "category" uploadCategory .invalid uploadCategory_null, str "status", str "url", str "expire",
    texts "headers"]
  distinct := by decide

def memorycardTimelineData : Schema where
  fields := [str "start", str "end"]
  distinct := by decide

/-! ### Objects that lose nothing -/

@[simp] theorem capsVideoObject_lossless : capsVideoObject.codec.Lossless := Schema.lossless (by simp [capsVideoObject])

@[simp] theorem capsAudioObject_lossless : capsAudioObject.codec.Lossless := Schema.lossless (by simp [capsAudioObject])

@[simp] theorem streamCaps_lossless : streamCaps.codec.Lossless := Schema.lossless (by simp [streamCaps])

@[simp] theorem motionDetectionCaps_lossless : motionDetectionCaps.codec.Lossless :=
  Schema.lossless (by simp [motionDetectionCaps])

@[simp] theorem videoCaps_lossless : videoCaps.codec.Lossless := Schema.lossless (by simp [videoCaps])

@[simp] theorem eventCaps_lossless : eventCaps.codec.Lossless := Schema.lossless (by simp [eventCaps])

@[simp] theorem audioCaps_lossless : audioCaps.codec.Lossless := Schema.lossless (by simp [audioCaps])

@[simp] theorem osdCaps_lossless : osdCaps.codec.Lossless := Schema.lossless (by simp [osdCaps])

@[simp] theorem videoStreamConfig_lossless : videoStreamConfig.codec.Lossless :=
  Schema.lossless (by simp [videoStreamConfig])

@[simp] theorem audioStreamConfig_lossless : audioStreamConfig.codec.Lossless :=
  Schema.lossless (by simp [audioStreamConfig])

@[simp] theorem streamConfig_lossless : streamConfig.codec.Lossless := Schema.lossless (by simp [streamConfig])

@[simp] theorem motionRegion_lossless : motionRegion.codec.Lossless := Schema.lossless (by simp [motionRegion])

@[simp] theorem motionDetectionConfig_lossless : motionDetectionConfig.codec.Lossless :=
  Schema.lossless (by simp [motionDetectionConfig])

@[simp] theorem videoConfig_lossless : videoConfig.codec.Lossless := Schema.lossless (by simp [videoConfig])

@[simp] theorem wifiNetwork_lossless : wifiNetwork.codec.Lossless := Schema.lossless (by simp [wifiNetwork])

@[simp] theorem wifiConfig_lossless : wifiConfig.codec.Lossless := Schema.lossless (by simp [wifiConfig])

@[simp] theorem audioConfig_lossless : audioConfig.codec.Lossless := Schema.lossless (by simp [audioConfig])

@[simp] theorem ptzPreset_lossless : ptzPreset.codec.Lossless := Schema.lossless (by simp [ptzPreset])

@[simp] theorem ptzConfig_lossless : ptzConfig.codec.Lossless := Schema.lossless (by simp [ptzConfig])

@[simp] theorem ptzCommand_lossless : ptzCommand.codec.Lossless := Schema.lossless (by simp [ptzCommand])

@[simp] theorem osdConfig_lossless : osdConfig.codec.Lossless := Schema.lossless (by simp [osdConfig])

@[simp] theorem supportedStreamConfig_lossless : supportedStreamConfig.codec.Lossless :=
  Schema.lossless (by simp [supportedStreamConfig])

@[simp] theorem supportedStreamsConfig_lossless : supportedStreamsConfig.codec.Lossless :=
  Schema.lossless (by simp [supportedStreamsConfig])

@[simp] theorem streamByEventCaps_lossless : streamByEventCaps.codec.Lossless :=
  Schema.lossless (by simp [streamByEventCaps])

@[simp] theorem streamByEventConfig_lossless : streamByEventConfig.codec.Lossless :=
  Schema.lossless (by simp [streamByEventConfig])

@[simp] theorem audioDetectionConfCaps_lossless : audioDetectionConfCaps.codec.Lossless :=
  Schema.lossless (by simp [audioDetectionConfCaps])

@[simp] theorem audioDetectionConfig_lossless : audioDetectionConfig.codec.Lossless :=
  Schema.lossless (by simp [audioDetectionConfig])

@[simp] theorem directUploadUrlBase_lossless : directUploadUrlBase.codec.Lossless :=
  Schema.lossless (by simp [directUploadUrlBase])

@[simp] theorem memorycardTimelineData_lossless : memorycardTimelineData.codec.Lossless :=
  Schema.lossless (by simp [memorycardTimelineData])

end CloudAgent.Proto.Wire
