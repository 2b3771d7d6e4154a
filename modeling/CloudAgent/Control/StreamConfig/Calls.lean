import CloudAgent.Control.StreamConfig

/-! Which streams new settings are handed to: what the entries of a command give, against the current settings. -/
namespace CloudAgent.Control
open Proto Wire

/-! ### Settings that an entry gives -/

/-- A setting of an elementary stream: the member of an entry that gives it, the values of it that stand for nothing,
and what it is now. Such a value is the default, and `__is_unset` knows no others. -/
structure Setting (α : Type) where
  {type : Type}
  [decEq : DecidableEq type]
  name : String
  codec : Codec type
  dflt : type
  unset : type → Bool
  current : α → type
  unset_eq : ∀ x, unset x = true → x = dflt
  codec_unset : ∀ x, codec.unset x = true → unset x = true

namespace Setting
variable {α : Type} (f : Setting α) (j : Json) (v : α)

instance : DecidableEq f.type := f.decEq

/-- What the entry says, if it can be read. -/
def said : Option f.type := (j.at? f.name).bind f.codec.dec

/-- What the entry gives. -/
def given : Option f.type := (f.said j).filter fun x => !f.unset x

/-- The entry gives another value than the current one. -/
def Changes : Prop := ∃ x ∈ f.given j, x ≠ f.current v

/-- The current value is one that `__is_unset` tells from none. -/
def Filled : Prop := f.codec.unset (f.current v) = false

/-- The entry gives nothing, and `__is_unset` does not see it. -/
def LeftOut : Prop := f.codec.unset f.dflt = false ∧ f.given j = none ∧ f.current v ≠ f.dflt

/-- What `operator==` takes for a change. -/
def Differs : Prop := (f.Changes j v ∧ f.Filled v) ∨ f.LeftOut j v

instance : Decidable (f.Changes j v) := inferInstanceAs (Decidable (∃ x ∈ f.given j, x ≠ f.current v))

/-- What `operator==` makes of the member. -/
def agrees : Bool := agree f.codec.unset ((f.said j).getD f.dflt) (f.current v)

theorem codec_unset_dflt {x : f.type} (h : f.codec.unset x = true) : f.codec.unset f.dflt = true := by
  rwa [← f.unset_eq x (f.codec_unset x h)]

theorem agree_dflt_iff : agree f.codec.unset f.dflt (f.current v) = false ↔
    f.codec.unset f.dflt = false ∧ f.current v ≠ f.dflt := by
  rw [agree]
  cases hd : f.codec.unset f.dflt with
  | true => simp
  | false =>
    have hv : f.codec.unset (f.current v) = false := by
      cases hv : f.codec.unset (f.current v) with
      | false => rfl
      | true =>
        rw [f.codec_unset_dflt hv] at hd
        cases hd
    simp [hv, eq_comm]

theorem agrees_iff : f.agrees j v = false ↔ f.Differs j v := by
  rw [agrees, Differs, Changes, LeftOut, Filled, given]
  cases f.said j with
  | none => simpa using f.agree_dflt_iff v
  | some x =>
    cases hx : f.unset x with
    | true =>
      obtain rfl := f.unset_eq x hx
      simpa [hx] using f.agree_dflt_iff v
    | false =>
      have hc : f.codec.unset x = false := by
        cases hc : f.codec.unset x with
        | false => rfl
        | true =>
          rw [f.codec_unset x hc] at hx
          cases hx
      simp [agree, hx, hc]

/-- What gives the current value is no change. -/
theorem not_differs_of_given (h : f.given j = some (f.current v)) : ¬ f.Differs j v := by
  rintro (⟨⟨x, hx, hne⟩, -⟩ | ⟨-, hnone, -⟩)
  · rw [h] at hx
    exact hne (Option.some.inj hx).symm
  · rw [h] at hnone
    cases hnone

theorem not_differs_of_dflt (h : f.given j = none) (hv : f.current v = f.dflt) : ¬ f.Differs j v := by
  rintro (⟨⟨x, hx, -⟩, -⟩ | ⟨-, -, hne⟩)
  · rw [h] at hx
    cases hx
  · exact hne hv

/-- Against the default, only what `__is_unset` does not know differs. -/
theorem differs_dflt_iff (hv : f.current v = f.dflt) :
    f.Differs j v ↔ (∃ x ∈ f.given j, x ≠ f.dflt) ∧ f.codec.unset f.dflt = false := by
  rw [Differs, Changes, Filled, LeftOut, hv]
  constructor
  · rintro (h | ⟨-, -, hne⟩)
    · exact h
    · exact absurd rfl hne
  · exact .inl

variable {β : Type} [DecidableEq β]

/-- A setting with a value that `__is_unset` knows. -/
def scalar (name : String) (codec : Codec β) (dflt : β) (current : α → β) (h : ∀ x, codec.unset x = true → x = dflt) :
    Setting α :=
  ⟨name, codec, dflt, codec.unset, current, h, fun _ => id⟩

/-- A setting that is an enumeration. `__is_unset` takes no value of it for none. -/
def enumeration (name : String) (e : EnumTable β) (invalid : β) (current : α → β) : Setting α :=
  ⟨name, e.codec, invalid, (· = invalid), current, fun _ => of_decide_eq_true, fun _ => Bool.noConfusion⟩

end Setting

namespace VideoSetting

def stream : Setting videoStreamConfig.Value :=
  .scalar "stream" text unsetString (fun v => v.1) fun _ => of_decide_eq_true

def format : Setting videoStreamConfig.Value :=
  .enumeration "format" videoFormat .invalid fun (_, format, _) => format

def profile : Setting videoStreamConfig.Value :=
  .scalar "profile" text unsetString (fun (_, _, profile, _) => profile) fun _ => of_decide_eq_true

/-- The settings of a video that are an `int`. -/
def number (name : String) (current : videoStreamConfig.Value → Int32) : Setting videoStreamConfig.Value :=
  .scalar name int unsetInt32 current fun _ => of_decide_eq_true

def horz := number "horz" fun (_, _, _, horz, _) => horz

def vert := number "vert" fun (_, _, _, _, vert, _) => vert

def fps : Setting videoStreamConfig.Value :=
  .scalar "fps" double unsetDouble (fun (_, _, _, _, _, fps, _) => fps) fun _ => of_decide_eq_true

/-- Off is a value like another, though it is the default. -/
def vbr : Setting videoStreamConfig.Value :=
  ⟨"vbr", flag, false, fun _ => false, fun (_, _, _, _, _, _, vbr, _) => vbr, fun _ => Bool.noConfusion, fun _ => id⟩

def quality := number "quality" fun (_, _, _, _, _, _, _, quality, _) => quality

def gop := number "gop" fun (_, _, _, _, _, _, _, _, gop, _) => gop

def brt := number "brt" fun (_, _, _, _, _, _, _, _, _, brt, _) => brt

def vbrBrt := number "vbr_brt" fun (_, _, _, _, _, _, _, _, _, _, vbrBrt, _) => vbrBrt

def smoothing := number "smoothing" fun (_, _, _, _, _, _, _, _, _, _, _, smoothing, _) => smoothing

/-- The settings that `operator==` looks at besides the name. -/
def compared : List (Setting videoStreamConfig.Value) := [profile, brt, format, fps, gop, horz, vert, vbr, vbrBrt]

/-- The settings that it does not look at. -/
def ignored : List (Setting videoStreamConfig.Value) := [quality, smoothing]

end VideoSetting

namespace AudioSetting

def stream : Setting audioStreamConfig.Value :=
  .scalar "stream" text unsetString (fun a => a.1) fun _ => of_decide_eq_true

def format : Setting audioStreamConfig.Value :=
  .enumeration "format" audioFormat .invalid fun (_, format, _) => format

def brt : Setting audioStreamConfig.Value :=
  .scalar "brt" int unsetInt32 (fun (_, _, brt, _) => brt) fun _ => of_decide_eq_true

def srt : Setting audioStreamConfig.Value :=
  .scalar "srt" double unsetDouble (fun (_, _, _, srt, _) => srt) fun _ => of_decide_eq_true

def compared : List (Setting audioStreamConfig.Value) := [format, brt, srt]

end AudioSetting

/-- `operator==` compares the members one by one. -/
theorem sameVideo_eq (j : Json) (v : videoStreamConfig.Value) : sameVideo (videoStreamConfig.part.read j) v =
    (VideoSetting.stream :: VideoSetting.compared).all (·.agrees j v) := by
  obtain ⟨stream, format, profile, horz, vert, fps, vbr, quality, gop, brt, vbrBrt, smoothing, u⟩ := v
  simp only [VideoSetting.compared, List.all_cons, List.all_nil, Bool.and_true, ← Bool.and_assoc]
  rfl

theorem sameAudio_eq (j : Json) (a : audioStreamConfig.Value) : sameAudio (audioStreamConfig.part.read j) a =
    (AudioSetting.stream :: AudioSetting.compared).all (·.agrees j a) := by
  obtain ⟨stream, format, brt, srt, u⟩ := a
  simp only [AudioSetting.compared, List.all_cons, List.all_nil, Bool.and_true, ← Bool.and_assoc]
  rfl

/-- The entry is taken for one with other settings. -/
def DiffersIn {α : Type} (fs : List (Setting α)) (j : Json) (v : α) : Prop := ∃ f ∈ fs, f.Differs j v

theorem all_agrees_iff {α : Type} {name : Setting α} {fs : List (Setting α)} {j : Json} {v : α}
    (hname : ¬ name.Differs j v) : (name :: fs).all (·.agrees j v) = false ↔ DiffersIn fs j v := by
  simp only [List.all_eq_false, Bool.not_eq_true, Setting.agrees_iff, List.exists_mem_cons_iff, hname, false_or,
    DiffersIn]

section unset
variable {j : Json}

theorem text_unset : text.unset unsetString = true := decide_eq_true (rfl : unsetString = unsetString)

theorem int_unset : int.unset unsetInt32 = true := decide_eq_true (rfl : unsetInt32 = unsetInt32)

theorem double_unset : double.unset unsetDouble = true := decide_eq_true (rfl : unsetDouble = unsetDouble)

/-- Nothing differs from a default that `__is_unset` knows. -/
theorem Setting.not_differs_of_unset {α : Type} {f : Setting α} {v : α} (hv : f.current v = f.dflt)
    (h : f.codec.unset f.dflt = true) : ¬ f.Differs j v := by
  rw [f.differs_dflt_iff j v hv, h]
  rintro ⟨-, hfalse⟩
  cases hfalse

theorem Setting.differs_invalid_iff {α β : Type} [DecidableEq β] {name : String} {e : EnumTable β} {invalid : β}
    {current : α → β} {v : α} (hv : current v = invalid) :
    (enumeration name e invalid current).Differs j v ↔ (enumeration name e invalid current).given j ≠ none := by
  rw [differs_dflt_iff _ j v hv]
  constructor
  · rintro ⟨⟨x, hx, -⟩, -⟩ hnone
    rw [hnone] at hx
    cases hx
  · intro hgiven
    obtain ⟨x, hx⟩ := Option.ne_none_iff_exists'.mp hgiven
    exact ⟨⟨x, hx, fun heq => by simpa [given, enumeration, heq] using (Option.filter_eq_some_iff.mp hx).2⟩, rfl⟩

theorem VideoSetting.vbr_differs_iff {v : videoStreamConfig.Value} (hv : vbr.current v = false) :
    vbr.Differs j v ↔ vbr.given j = some true := by
  rw [Setting.differs_dflt_iff _ j v hv]
  constructor
  · rintro ⟨⟨x, hx, hne⟩, -⟩
    cases x with
    | false => exact absurd rfl hne
    | true => exact hx
  · intro hon
    exact ⟨⟨true, hon, fun heq => Bool.false_ne_true heq.symm⟩, rfl⟩

/-- Settings of which none is set have the defaults, and `__is_unset` knows all but two of them. -/
theorem VideoSetting.unset_dflt {f : Setting videoStreamConfig.Value} (hf : f ∈ compared) :
    f.current unsetVideo = f.dflt ∧ (f.codec.unset f.dflt = true ∨ f = format ∨ f = vbr) := by
  simp only [compared, List.mem_cons, List.not_mem_nil, or_false] at hf
  obtain rfl | rfl | rfl | rfl | rfl | rfl | rfl | rfl | rfl := hf
  · exact ⟨rfl, .inl text_unset⟩
  · exact ⟨rfl, .inl int_unset⟩
  · exact ⟨rfl, .inr (.inl rfl)⟩
  · exact ⟨rfl, .inl double_unset⟩
  · exact ⟨rfl, .inl int_unset⟩
  · exact ⟨rfl, .inl int_unset⟩
  · exact ⟨rfl, .inl int_unset⟩
  · exact ⟨rfl, .inr (.inr rfl)⟩
  · exact ⟨rfl, .inl int_unset⟩

theorem AudioSetting.unset_dflt {f : Setting audioStreamConfig.Value} (hf : f ∈ compared) :
    f.current unsetAudio = f.dflt ∧ (f.codec.unset f.dflt = true ∨ f = format) := by
  simp only [compared, List.mem_cons, List.not_mem_nil, or_false] at hf
  obtain rfl | rfl | rfl := hf
  · exact ⟨rfl, .inr rfl⟩
  · exact ⟨rfl, .inl int_unset⟩
  · exact ⟨rfl, .inl double_unset⟩

/-- What is left out differs if it is the format, or `vbr` where it is on. -/
theorem leftOut_video_iff {v : videoStreamConfig.Value} : (∃ f ∈ VideoSetting.compared, f.LeftOut j v) ↔
    (VideoSetting.format.given j = none ∧ VideoSetting.format.current v ≠ .invalid) ∨
      VideoSetting.vbr.given j = none ∧ VideoSetting.vbr.current v = true := by
  constructor
  · rintro ⟨f, hf, hunset, hnone, hne⟩
    obtain hknown | rfl | rfl := (VideoSetting.unset_dflt hf).2
    · cases hknown.symm.trans hunset
    · exact .inl ⟨hnone, hne⟩
    · exact .inr ⟨hnone, (Bool.not_eq_false _).mp hne⟩
  · rintro (⟨hnone, hne⟩ | ⟨hnone, hon⟩)
    · exact ⟨VideoSetting.format, by simp [VideoSetting.compared], rfl, hnone, hne⟩
    · exact ⟨VideoSetting.vbr, by simp [VideoSetting.compared], rfl, hnone, (Bool.not_eq_false _).mpr hon⟩

theorem leftOut_audio_iff {a : audioStreamConfig.Value} : (∃ f ∈ AudioSetting.compared, f.LeftOut j a) ↔
    AudioSetting.format.given j = none ∧ AudioSetting.format.current a ≠ .invalid := by
  constructor
  · rintro ⟨f, hf, hunset, hnone, hne⟩
    obtain hknown | rfl := (AudioSetting.unset_dflt hf).2
    · cases hknown.symm.trans hunset
    · exact ⟨hnone, hne⟩
  · rintro ⟨hnone, hne⟩
    exact ⟨AudioSetting.format, List.mem_cons_self, rfl, hnone, hne⟩

/-- Against settings of which none is set, an entry differs by its format and by a `vbr` that is on. -/
theorem differsIn_unsetVideo_iff : DiffersIn VideoSetting.compared j unsetVideo ↔
    VideoSetting.format.given j ≠ none ∨ VideoSetting.vbr.given j = some true := by
  have hformat : VideoSetting.format.Differs j unsetVideo ↔ VideoSetting.format.given j ≠ none :=
    Setting.differs_invalid_iff rfl
  have hvbr : VideoSetting.vbr.Differs j unsetVideo ↔ VideoSetting.vbr.given j = some true :=
    VideoSetting.vbr_differs_iff rfl
  rw [← hformat, ← hvbr]
  constructor
  · rintro ⟨f, hf, hdiff⟩
    obtain ⟨hv, hknown | rfl | rfl⟩ := VideoSetting.unset_dflt hf
    · exact absurd hdiff (Setting.not_differs_of_unset hv hknown)
    · exact .inl hdiff
    · exact .inr hdiff
  · rintro (hdiff | hdiff)
    · exact ⟨VideoSetting.format, by simp [VideoSetting.compared], hdiff⟩
    · exact ⟨VideoSetting.vbr, by simp [VideoSetting.compared], hdiff⟩

theorem differsIn_unsetAudio_iff : DiffersIn AudioSetting.compared j unsetAudio ↔
    AudioSetting.format.given j ≠ none := by
  have hformat : AudioSetting.format.Differs j unsetAudio ↔ AudioSetting.format.given j ≠ none :=
    Setting.differs_invalid_iff rfl
  rw [← hformat]
  constructor
  · rintro ⟨f, hf, hdiff⟩
    obtain ⟨hv, hknown | rfl⟩ := AudioSetting.unset_dflt hf
    · exact absurd hdiff (Setting.not_differs_of_unset hv hknown)
    · exact hdiff
  · exact fun hdiff => ⟨AudioSetting.format, List.mem_cons_self, hdiff⟩

end unset

/-! ### Commands -/

/-- The entries of a command. -/
def entries (command : Json) (kind : String) : List Json :=
  match command.at? kind with
  | some (.arr js) => js
  | _ => []

theorem read_many {α : Type} (name : String) (c : Codec α) (read : Json → α) (hdec : ∀ j, c.dec j = some (read j))
    (command : Json) : (many name c).part.read command = (entries command name).map read := by
  have hmap (js : List Json) : js.mapM c.dec = some (js.map read) := by
    induction js with
    | nil => rfl
    | cons j js ih =>
      rw [List.mapM_cons, hdec, ih]
      rfl
  change ((command.at? name).bind c.list.dec).getD [] = (entries command name).map read
  rw [entries]
  cases command.at? name with
  | none => rfl
  | some x =>
    cases x with
    | arr js => exact congrArg (·.getD []) (hmap js)
    | null | bool | int | float | str | obj => rfl

/-- The current settings of a stream's elementary streams. -/
structure CurrentSettings where
  video : Option videoStreamConfig.Value
  audio : Option audioStreamConfig.Value

/-- The stream has the elementary streams of `cur`, and fills in the settings of each. -/
structure ConfigStream.Fills (s : ConfigStream) (cur : CurrentSettings) : Prop where
  videoEs : (currentConfig s).1.2.1 = (cur.video.map VideoSetting.stream.current).getD unsetString
  audioEs : (currentConfig s).1.2.2.1 = (cur.audio.map AudioSetting.stream.current).getD unsetString
  settings : (currentConfig s).2 = (cur.video.toList, cur.audio.toList, ())
  videoNamed : ∀ v ∈ cur.video, VideoSetting.stream.current v ≠ unsetString
  audioNamed : ∀ a ∈ cur.audio, AudioSetting.stream.current a ≠ unsetString

/-- An entry for the elementary stream, if the stream has it, is as `P` says. -/
def EntryFor {α : Type} (stream : Setting α) (es : Option α) (js : List Json) (P : Json → α → Prop) : Prop :=
  ∃ v ∈ es, ∃ j ∈ js, stream.given j = some (stream.current v) ∧ P j v

instance {α : Type} (stream : Setting α) (es : Option α) (js : List Json) (P : Json → α → Prop)
    [∀ j v, Decidable (P j v)] : Decidable (EntryFor stream es js P) :=
  inferInstanceAs (Decidable (∃ v ∈ es, ∃ j ∈ js, stream.given j = some (stream.current v) ∧ P j v))

theorem entryFor_or {α : Type} {stream : Setting α} {es : Option α} {js : List Json} {P Q : Json → α → Prop} :
    EntryFor stream es js (fun j v => P j v ∨ Q j v) ↔ EntryFor stream es js P ∨ EntryFor stream es js Q := by
  constructor
  · rintro ⟨v, hv, j, hj, hname, hp | hq⟩
    · exact .inl ⟨v, hv, j, hj, hname, hp⟩
    · exact .inr ⟨v, hv, j, hj, hname, hq⟩
  · rintro (⟨v, hv, j, hj, hname, hp⟩ | ⟨v, hv, j, hj, hname, hq⟩)
    · exact ⟨v, hv, j, hj, hname, .inl hp⟩
    · exact ⟨v, hv, j, hj, hname, .inr hq⟩

section command
variable (cur : CurrentSettings) (command : Json)

/-- An entry for the video, or one for the audio of the stream, is as `P` and `Q` say. -/
def SomeEntry (P : Json → videoStreamConfig.Value → Prop) (Q : Json → audioStreamConfig.Value → Prop) : Prop :=
  EntryFor VideoSetting.stream cur.video (entries command "video") P ∨
    EntryFor AudioSetting.stream cur.audio (entries command "audio") Q

/-- An entry for one of the stream's elementary streams changes a setting. -/
def Wanted : Prop :=
  SomeEntry cur command (fun j v => ∃ f ∈ VideoSetting.compared ++ VideoSetting.ignored, f.Changes j v)
    fun j a => ∃ f ∈ AudioSetting.compared, f.Changes j a

instance : Decidable (Wanted cur command) :=
  inferInstanceAs (Decidable
    (EntryFor VideoSetting.stream cur.video (entries command "video")
        (fun j v => ∃ f ∈ VideoSetting.compared ++ VideoSetting.ignored, f.Changes j v) ∨
      EntryFor AudioSetting.stream cur.audio (entries command "audio")
        fun j a => ∃ f ∈ AudioSetting.compared, f.Changes j a))

/-- One that is compared with what the stream has filled in. -/
def ChangesCompared : Prop :=
  SomeEntry cur command (fun j v => ∃ f ∈ VideoSetting.compared, f.Changes j v ∧ f.Filled v)
    fun j a => ∃ f ∈ AudioSetting.compared, f.Changes j a ∧ f.Filled a

/-- One that is not: the quality, the smoothing, and what the stream has not filled in. -/
def ChangesIgnored : Prop :=
  SomeEntry cur command
    (fun j v => (∃ f ∈ VideoSetting.compared, f.Changes j v ∧ ¬ f.Filled v) ∨ ∃ f ∈ VideoSetting.ignored, f.Changes j v)
    fun j a => ∃ f ∈ AudioSetting.compared, f.Changes j a ∧ ¬ f.Filled a

/-- What an entry does not give is taken for a change: the format, or `vbr` where it is on. -/
def LeavesOut : Prop :=
  SomeEntry cur command
    (fun j v => (VideoSetting.format.given j = none ∧ VideoSetting.format.current v ≠ .invalid) ∨
      VideoSetting.vbr.given j = none ∧ VideoSetting.vbr.current v = true)
    fun j a => AudioSetting.format.given j = none ∧ AudioSetting.format.current a ≠ .invalid

/-- An entry without a name is taken for one of an elementary stream that the stream does not have. -/
def Unnamed : Prop :=
  (cur.video = none ∧ ∃ j ∈ entries command "video", VideoSetting.stream.given j = none ∧
      (VideoSetting.format.given j ≠ none ∨ VideoSetting.vbr.given j = some true)) ∨
    (cur.audio = none ∧ ∃ j ∈ entries command "audio", AudioSetting.stream.given j = none ∧
      AudioSetting.format.given j ≠ none)

end command

theorem given_name {o : Option String} {n : String} (hn : n ≠ unsetString) :
    o.getD unsetString = n ↔ (o.filter fun x => !text.unset x) = some n := by
  have hu : text.unset n = false := decide_eq_false hn
  cases o with
  | none => simp [hn.symm]
  | some x =>
    cases hx : text.unset x with
    | false => simp [hu]
    | true =>
      have hxn : x ≠ n := by
        rintro rfl
        rw [hx] at hu
        cases hu
      simp [hxn]

theorem no_name {o : Option String} : o.getD unsetString = unsetString ↔ (o.filter fun x => !text.unset x) = none := by
  cases o with
  | none => simp
  | some x =>
    have hx : text.unset x = decide (x = unsetString) := rfl
    by_cases h : x = unsetString <;> simp [hx, h, text_unset]

/-- Which entries make a stream take the settings: one for its elementary stream that differs from the current settings,
or one without a name, if it has no such elementary stream, that differs from settings of which none is set. -/
theorem changes_entries {α : Type} (name : α → String) (same : α → α → Bool) (unset : α) (read : Json → α)
    (given : Json → Option String) (js : List Json) {es : Option α} {P : Json → α → Prop} {Q : Json → Prop}
    (hgiven : ∀ j n, n ≠ unsetString → (name (read j) = n ↔ given j = some n))
    (hnone : ∀ j, name (read j) = unsetString ↔ given j = none) (hes : ∀ v ∈ es, name v ≠ unsetString)
    (hP : ∀ j v, given j = some (name v) → (same (read j) v = false ↔ P j v))
    (hQ : ∀ j, given j = none → (same (read j) unset = false ↔ Q j)) :
    changes name same unset es.toList ((es.map name).getD unsetString) (js.map read) = true ↔
      (∃ v ∈ es, ∃ j ∈ js, given j = some (name v) ∧ P j v) ∨ (es = none ∧ ∃ j ∈ js, given j = none ∧ Q j) := by
  cases es with
  | none =>
    simp only [changes, Option.toList_none, List.foldl_nil, Option.map_none, Option.getD_none, List.any_eq_true,
      List.mem_map, Bool.and_eq_true, decide_eq_true_eq, Bool.not_eq_true']
    constructor
    · rintro ⟨w, ⟨j, hj, rfl⟩, hname, hsame⟩
      have hj' := (hnone j).mp hname.symm
      exact .inr ⟨trivial, j, hj, hj', (hQ j hj').mp hsame⟩
    · rintro (⟨v, hv, -⟩ | ⟨-, j, hj, hname, hq⟩)
      · cases hv
      · exact ⟨_, ⟨j, hj, rfl⟩, ((hnone j).mpr hname).symm, (hQ j hname).mpr hq⟩
  | some v =>
    have hv := hes v rfl
    simp only [changes, Option.toList_some, List.foldl_cons, List.foldl_nil, Option.map_some, Option.getD_some,
      List.any_eq_true, List.mem_map, Bool.and_eq_true, decide_eq_true_eq, Bool.not_eq_true']
    constructor
    · rintro ⟨w, ⟨j, hj, rfl⟩, hname, hsame⟩
      rw [if_pos hname] at hsame
      have hj' := (hgiven j _ hv).mp hname.symm
      exact .inl ⟨v, rfl, j, hj, hj', (hP j v hj').mp hsame⟩
    · rintro (⟨w, hw, j, hj, hname, hp⟩ | ⟨hnone', -⟩)
      · obtain rfl := Option.some.inj hw
        have heq := ((hgiven j _ hv).mpr hname).symm
        exact ⟨_, ⟨j, hj, rfl⟩, heq, by rw [if_pos heq, hP j v hname]; exact hp⟩
      · cases hnone'

theorem differs_entry_iff {α : Type} {fs : List (Setting α)} {j : Json} {v : α} :
    DiffersIn fs j v ↔ (∃ f ∈ fs, f.Changes j v ∧ f.Filled v) ∨ ∃ f ∈ fs, f.LeftOut j v := by
  simp only [DiffersIn, Setting.Differs, and_or_left, exists_or]

theorem sameVideo_iff (j : Json) (v : videoStreamConfig.Value)
    (h : VideoSetting.stream.given j = some (VideoSetting.stream.current v)) :
    sameVideo (videoStreamConfig.part.read j) v = false ↔
      (∃ f ∈ VideoSetting.compared, f.Changes j v ∧ f.Filled v) ∨
        (VideoSetting.format.given j = none ∧ VideoSetting.format.current v ≠ .invalid) ∨
          VideoSetting.vbr.given j = none ∧ VideoSetting.vbr.current v = true := by
  rw [sameVideo_eq, all_agrees_iff (Setting.not_differs_of_given _ j v h), differs_entry_iff, leftOut_video_iff]

theorem sameAudio_iff (j : Json) (a : audioStreamConfig.Value)
    (h : AudioSetting.stream.given j = some (AudioSetting.stream.current a)) :
    sameAudio (audioStreamConfig.part.read j) a = false ↔
      (∃ f ∈ AudioSetting.compared, f.Changes j a ∧ f.Filled a) ∨
        AudioSetting.format.given j = none ∧ AudioSetting.format.current a ≠ .invalid := by
  rw [sameAudio_eq, all_agrees_iff (Setting.not_differs_of_given _ j a h), differs_entry_iff, leftOut_audio_iff]

theorem sameVideo_unset_iff (j : Json) (h : VideoSetting.stream.given j = none) :
    sameVideo (videoStreamConfig.part.read j) unsetVideo = false ↔
      VideoSetting.format.given j ≠ none ∨ VideoSetting.vbr.given j = some true := by
  rw [sameVideo_eq, all_agrees_iff (Setting.not_differs_of_dflt _ j unsetVideo h rfl), differsIn_unsetVideo_iff]

theorem sameAudio_unset_iff (j : Json) (h : AudioSetting.stream.given j = none) :
    sameAudio (audioStreamConfig.part.read j) unsetAudio = false ↔ AudioSetting.format.given j ≠ none := by
  rw [sameAudio_eq, all_agrees_iff (Setting.not_differs_of_dflt _ j unsetAudio h rfl), differsIn_unsetAudio_iff]

/-- The settings are handed to a stream if an entry changes what is compared, or is taken for one that does. -/
theorem ConfigStream.Fills.applies_iff {s : ConfigStream} {cur : CurrentSettings} (h : s.Fills cur) (command : Json) :
    s.applies (streamConfig.part.read command) = true ↔
      ChangesCompared cur command ∨ LeavesOut cur command ∨ Unnamed cur command := by
  have happlies : s.applies (streamConfig.part.read command) =
      (changes (fun v => v.1) sameVideo unsetVideo (currentConfig s).2.1 (currentConfig s).1.2.1
          (streamConfig.part.read command).1 ||
        changes (fun a => a.1) sameAudio unsetAudio (currentConfig s).2.2.1 (currentConfig s).1.2.2.1
          (streamConfig.part.read command).2.1) := rfl
  have hvideo : (streamConfig.part.read command).1 = (entries command "video").map videoStreamConfig.part.read :=
    read_many "video" videoStreamConfig.codec videoStreamConfig.part.read (fun _ => rfl) command
  have haudio : (streamConfig.part.read command).2.1 = (entries command "audio").map audioStreamConfig.part.read :=
    read_many "audio" audioStreamConfig.codec audioStreamConfig.part.read (fun _ => rfl) command
  have hv := changes_entries VideoSetting.stream.current sameVideo unsetVideo videoStreamConfig.part.read
    VideoSetting.stream.given (entries command "video") (fun _ _ hn => given_name hn) (fun _ => no_name) h.videoNamed
    sameVideo_iff sameVideo_unset_iff
  have ha := changes_entries AudioSetting.stream.current sameAudio unsetAudio audioStreamConfig.part.read
    AudioSetting.stream.given (entries command "audio") (fun _ _ hn => given_name hn) (fun _ => no_name) h.audioNamed
    sameAudio_iff sameAudio_unset_iff
  rw [happlies, h.settings, h.videoEs, h.audioEs, hvideo, haudio, Bool.or_eq_true]
  have hparts := or_congr (hv.trans (or_congr_left entryFor_or)) (ha.trans (or_congr_left entryFor_or))
  exact hparts.trans (or_or_or_comm.trans ((or_congr_left or_or_or_comm).trans or_assoc))

theorem changes_split {α : Type} (fs : List (Setting α)) (j : Json) (v : α) : (∃ f ∈ fs, f.Changes j v) ↔
    (∃ f ∈ fs, f.Changes j v ∧ f.Filled v) ∨ ∃ f ∈ fs, f.Changes j v ∧ ¬ f.Filled v := by
  constructor
  · rintro ⟨f, hf, hchanges⟩
    by_cases hfilled : f.Filled v
    · exact .inl ⟨f, hf, hchanges, hfilled⟩
    · exact .inr ⟨f, hf, hchanges, hfilled⟩
  · rintro (⟨f, hf, hchanges, -⟩ | ⟨f, hf, hchanges, -⟩)
    · exact ⟨f, hf, hchanges⟩
    · exact ⟨f, hf, hchanges⟩

theorem wanted_iff (cur : CurrentSettings) (command : Json) :
    Wanted cur command ↔ ChangesCompared cur command ∨ ChangesIgnored cur command := by
  have hvideo (j : Json) (v : videoStreamConfig.Value) :
      (∃ f ∈ VideoSetting.compared ++ VideoSetting.ignored, f.Changes j v) ↔
        (∃ f ∈ VideoSetting.compared, f.Changes j v ∧ f.Filled v) ∨
          (∃ f ∈ VideoSetting.compared, f.Changes j v ∧ ¬ f.Filled v) ∨ ∃ f ∈ VideoSetting.ignored, f.Changes j v := by
    rw [← or_assoc, ← changes_split]
    simp only [List.mem_append, or_and_right, exists_or]
  rw [Wanted, SomeEntry]
  simp only [hvideo, changes_split AudioSetting.compared]
  exact (or_congr entryFor_or entryFor_or).trans or_or_or_comm

/-! ### Calls -/

/-- The streams whose `set_stream_config` the loop of `on_set_stream_config` calls. -/
def setStreamConfigCalls (streams : List ConfigStream) (config : streamConfig.Value) : List ConfigStream :=
  streams.filter (·.applies config)

/-- The loop does nothing but call them in turn. -/
theorem onSetStreamConfig_calls (env : Env) (m : Media) (streams : List ConfigStream) (config : streamConfig.Value) :
    onSetStreamConfig env m streams config = (setStreamConfigCalls streams config).foldl (fun r s =>
      (r.1 || s.setStreamConfig config, if r.1 || s.setStreamConfig config then restart env m s.cloudName r.2 else r.2))
      (true, m.recorder, []) := by
  rw [onSetStreamConfig, setStreamConfigCalls, List.foldl_filter]
  rfl

/-- A stream is asked to take settings just if they change one of its own: this holds if they change one that is
compared, and else if what is taken for a change and what is not looked at go together. -/
theorem mem_calls_iff_wanted {streams : List ConfigStream} {s : ConfigStream} {cur : CurrentSettings}
    (hs : s ∈ streams) (h : s.Fills cur) (command : Json) :
    (s ∈ setStreamConfigCalls streams (streamConfig.part.read command) ↔ Wanted cur command) ↔
      ChangesCompared cur command ∨
        ((LeavesOut cur command ∨ Unnamed cur command) ↔ ChangesIgnored cur command) := by
  have hcalls : s ∈ setStreamConfigCalls streams (streamConfig.part.read command) ↔
      ChangesCompared cur command ∨ LeavesOut cur command ∨ Unnamed cur command := by
    rw [setStreamConfigCalls, List.mem_filter, h.applies_iff]
    exact and_iff_right hs
  rw [hcalls, wanted_iff]
  by_cases hcompared : ChangesCompared cur command
  · simp only [hcompared, true_or]
  · simp only [hcompared, false_or]

/-- Settings of a video, all of them given. -/
def fullVideo : videoStreamConfig.Value :=
  ("Video0", VideoFormat.h264, "main", (1280 : Int32), (720 : Int32), (25 : ℚ), false, (0 : Int32), (50 : Int32),
    (1000 : Int32), (2000 : Int32), (0 : Int32), ())

/-- A stream with one video, which has these settings. -/
def videoStream : ConfigStream :=
  { fixedStream with getStreamConfig := fun _ => (true, [fullVideo], [], ()), setStreamConfig := fun _ => true }

theorem videoStream_fills : videoStream.Fills ⟨some fullVideo, none⟩ where
  videoEs := rfl
  audioEs := rfl
  settings := rfl
  videoNamed := by
    rintro v ⟨⟩
    exact (by decide : "Video0" ≠ unsetString)
  audioNamed := by
    rintro a ⟨⟩

/-- A command for the video, with a format or another member. -/
def videoCommand (members : List (String × Json)) : Json :=
  .obj [("video", .arr [.obj (("stream", .str "Video0") :: members)])]

theorem mem_calls_iff_wanted_brt :
    videoStream ∈ setStreamConfigCalls [videoStream] (streamConfig.part.read (videoCommand [("brt", .int 500)])) ↔
      Wanted ⟨some fullVideo, none⟩ (videoCommand [("brt", .int 500)]) := by
  refine (mem_calls_iff_wanted (List.mem_singleton_self _) videoStream_fills _).mpr (.inl (.inl ?_))
  refine ⟨fullVideo, rfl, _, List.mem_singleton_self _, by decide +kernel, VideoSetting.brt, ?_, ?_, ?_⟩
  · simp [VideoSetting.compared]
  · decide +kernel
  · rfl

/-- The quality alone is not handed to the stream, but the bitrate that it has already is, without a format. -/
theorem not_mem_calls_iff_wanted :
    videoStream.Fills ⟨some fullVideo, none⟩ ∧
      (∀ f ∈ VideoSetting.compared ++ VideoSetting.ignored, f.unset (f.current fullVideo) = false) ∧
      ¬ (videoStream ∈ setStreamConfigCalls [videoStream] (streamConfig.part.read
          (videoCommand [("format", .str "H.264"), ("quality", .int 3)])) ↔
        Wanted ⟨some fullVideo, none⟩ (videoCommand [("format", .str "H.264"), ("quality", .int 3)])) ∧
      ¬ (videoStream ∈ setStreamConfigCalls [videoStream] (streamConfig.part.read
          (videoCommand [("brt", .int 1000)])) ↔
        Wanted ⟨some fullVideo, none⟩ (videoCommand [("brt", .int 1000)])) := by
  have hmem (config : streamConfig.Value) :
      videoStream ∈ setStreamConfigCalls [videoStream] config ↔ videoStream.applies config = true := by
    rw [setStreamConfigCalls, List.mem_filter]
    exact and_iff_right (List.mem_singleton_self _)
  rw [hmem, hmem]
  exact ⟨videoStream_fills, by decide +kernel, by decide +kernel, by decide +kernel⟩

end CloudAgent.Control
