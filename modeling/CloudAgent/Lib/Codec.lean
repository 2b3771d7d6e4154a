import CloudAgent.Lib.Json

/-! Codecs between values and JSON, and what a value is after it was written and read back. A codec
says for which values that is the same on the wire; the combinators keep this exact. -/
namespace CloudAgent

/-- How a value is written and read. `dec` is nothing where reading throws; `unset` tells a value that is
left out of an object. `wire` forgets what is not written, and `Kept` holds of the values that come back. -/
structure Codec (α : Type) where
  enc : α → Json
  dec : Json → Option α
  unset : α → Bool
  wire : α → α
  Kept : α → Prop
  law : ∀ v, ∃ v', dec (enc v) = some v' ∧ (wire v' = wire v ↔ Kept v)

namespace Codec
variable {α β γ : Type}

/-- A codec that loses nothing. -/
def exact (enc : α → Json) (dec : Json → Option α) (unset : α → Bool) (h : ∀ v, dec (enc v) = some v) :
    Codec α where
  enc := enc
  dec := dec
  unset := unset
  wire := id
  Kept _ := True
  law v := ⟨v, h v, by simp⟩

/-- A list as an array; one item that cannot be read makes the whole array unreadable. -/
def list (c : Codec α) : Codec (List α) where
  enc vs := .arr (vs.map c.enc)
  dec
    | .arr xs => xs.mapM c.dec
    | _ => none
  unset _ := false
  wire vs := vs.map c.wire
  Kept vs := ∀ v ∈ vs, c.Kept v
  law vs := by
    induction vs with
    | nil => exact ⟨[], rfl, by simp⟩
    | cons v vs ih =>
      obtain ⟨v', hv, hiff⟩ := c.law v
      obtain ⟨vs', hvs, hiffs⟩ := ih
      refine ⟨v' :: vs', ?_, ?_⟩
      · dsimp only at hvs ⊢
        rw [List.map_cons, List.mapM_cons, hv, hvs]
        rfl
      · rw [List.map_cons, List.map_cons, List.cons.injEq, hiff, hiffs, List.forall_mem_cons]

/-- A pair as an array whose first two items are read. -/
def pair (c : Codec α) (d : Codec β) : Codec (α × β) where
  enc v := .arr [c.enc v.1, d.enc v.2]
  dec
    | .arr (x :: y :: _) => (c.dec x).bind fun a => (d.dec y).map fun b => (a, b)
    | _ => none
  unset _ := false
  wire v := (c.wire v.1, d.wire v.2)
  Kept v := c.Kept v.1 ∧ d.Kept v.2
  law v := by
    obtain ⟨a, ha, hiffa⟩ := c.law v.1
    obtain ⟨b, hb, hiffb⟩ := d.law v.2
    refine ⟨(a, b), by simp [ha, hb], ?_⟩
    rw [Prod.mk.injEq, hiffa, hiffb]

/-- A triple as an array whose first three items are read. -/
def triple (c : Codec α) (d : Codec β) (e : Codec γ) : Codec (α × β × γ) where
  enc v := .arr [c.enc v.1, d.enc v.2.1, e.enc v.2.2]
  dec
    | .arr (x :: y :: z :: _) =>
      (c.dec x).bind fun a => (d.dec y).bind fun b => (e.dec z).map fun g => (a, b, g)
    | _ => none
  unset _ := false
  wire v := (c.wire v.1, d.wire v.2.1, e.wire v.2.2)
  Kept v := c.Kept v.1 ∧ d.Kept v.2.1 ∧ e.Kept v.2.2
  law v := by
    obtain ⟨a, ha, hiffa⟩ := c.law v.1
    obtain ⟨b, hb, hiffb⟩ := d.law v.2.1
    obtain ⟨g, hg, hiffg⟩ := e.law v.2.2
    refine ⟨(a, b, g), by simp [ha, hb, hg], ?_⟩
    rw [Prod.mk.injEq, Prod.mk.injEq, hiffa, hiffb, hiffg]

end Codec

/-! ### Enumerations -/

/-- The table that an enumeration is written and read by. A value that has no row is written as the first
row's text, and a text without a row is read as the first row's value; no text is `null`. -/
structure EnumTable (ε : Type) where
  first : ε × Option String
  rest : List (ε × Option String)

namespace EnumTable
variable {ε : Type} [DecidableEq ε]

def rows (t : EnumTable ε) : List (ε × Option String) := t.first :: t.rest

def textJson : Option String → Json
  | none => .null
  | some s => .str s

/-- Whether a row's text is that JSON value. -/
def isText : Option String → Json → Bool
  | none, .null => true
  | some s, .str s' => s = s'
  | _, _ => false

def toJson (t : EnumTable ε) (e : ε) : Json := textJson ((t.rows.find? (·.1 = e)).getD t.first).2

def ofJson (t : EnumTable ε) (j : Json) : ε := ((t.rows.find? fun r => isText r.2 j).getD t.first).1

def codec (t : EnumTable ε) : Codec ε where
  enc := t.toJson
  dec j := some (t.ofJson j)
  unset _ := false
  wire := id
  Kept e := t.ofJson (t.toJson e) = e
  law e := ⟨t.ofJson (t.toJson e), rfl, Iff.rfl⟩

end EnumTable

/-! ### Objects -/

/-- A part of an object: the members it owns, how they are added to an object and read from one. -/
structure Part (α : Type) where
  keys : List String
  write : α → Json → Json
  read : Json → α
  wire : α → α
  Kept : α → Prop
  frame : ∀ v j k, k ∉ keys → (write v j).at? k = j.at? k
  congr : ∀ j j', (∀ k ∈ keys, j.at? k = j'.at? k) → read j = read j'
  law : ∀ v j, (∀ k ∈ keys, j.at? k = none) → (wire (read (write v j)) = wire v ↔ Kept v)

namespace Part
variable {α β : Type}

def nil : Part Unit where
  keys := []
  write _ j := j
  read _ := ()
  wire := id
  Kept _ := True
  frame _ _ _ _ := rfl
  congr _ _ _ := rfl
  law _ _ _ := by simp

/-- Two parts of one object. -/
def append (p : Part α) (q : Part β) (h : ∀ k ∈ p.keys, k ∉ q.keys) : Part (α × β) where
  keys := p.keys ++ q.keys
  write v j := q.write v.2 (p.write v.1 j)
  read j := (p.read j, q.read j)
  wire v := (p.wire v.1, q.wire v.2)
  Kept v := p.Kept v.1 ∧ q.Kept v.2
  frame v j k hk := by
    rw [List.mem_append, not_or] at hk
    rw [q.frame _ _ _ hk.2, p.frame _ _ _ hk.1]
  congr j j' hj := by
    rw [p.congr j j' fun k hk => hj k (List.mem_append_left _ hk),
      q.congr j j' fun k hk => hj k (List.mem_append_right _ hk)]
  law v j hj := by
    -- the second part writes none of the members of the first
    have hp : p.read (q.write v.2 (p.write v.1 j)) = p.read (p.write v.1 j) :=
      p.congr _ _ fun k hk => q.frame _ _ _ (h k hk)
    have hnone : ∀ k ∈ q.keys, (p.write v.1 j).at? k = none := by
      intro k hk
      rw [p.frame _ _ _ fun hkp => h k hkp hk]
      exact hj k (List.mem_append_right _ hk)
    rw [Prod.mk.injEq, hp, p.law v.1 j fun k hk => hj k (List.mem_append_left _ hk), q.law v.2 _ hnone]

/-- One member. A value that is unset or written as `null` leaves no member, and a member that is missing
or cannot be read leaves the default. -/
def field (name : String) (c : Codec α) (dflt : α)
    (h : c.dec .null = some dflt ∨ ∀ v, (c.enc v).isNull = false) : Part α where
  keys := [name]
  write v j :=
    if c.unset v then j
    else if (c.enc v).isNull then (j.set name (c.enc v)).erase name else j.set name (c.enc v)
  read j := ((j.at? name).bind c.dec).getD dflt
  wire := c.wire
  Kept v := if c.unset v then c.wire dflt = c.wire v else c.Kept v
  frame v j k hk := by
    have hne : k ≠ name := by simpa using hk
    split
    · rfl
    · split <;> simp [hne]
  congr j j' hj := by rw [hj name (by simp)]
  law v j hj := by
    have hnone : j.at? name = none := hj name (by simp)
    obtain ⟨v', hv, hiff⟩ := c.law v
    cases hu : c.unset v with
    | true => simp [hnone]
    | false =>
      simp only [Bool.false_eq_true, if_false]
      split
      · rename_i hnull
        have henc : c.enc v = .null := Json.isNull_iff.mp hnull
        obtain hd | hd := h
        · rw [henc, hd] at hv
          rw [Json.at?_erase_self, ← hiff, ← Option.some.inj hv]
          rfl
        · rw [hd v] at hnull
          exact absurd hnull Bool.false_ne_true
      · rw [Json.at?_set_self, Option.bind_some, hv]
        exact hiff

/-- One member that is written where `written` says so, also as `null`. -/
def update (name : String) (c : Codec α) (written : α → Bool) (dflt : α) : Part α where
  keys := [name]
  write v j := if written v then j.set name (c.enc v) else j
  read j := ((j.at? name).bind c.dec).getD dflt
  wire := c.wire
  Kept v := if written v then c.Kept v else c.wire dflt = c.wire v
  frame v j k hk := by
    have hne : k ≠ name := by simpa using hk
    split <;> simp [hne]
  congr j j' hj := by rw [hj name (by simp)]
  law v j hj := by
    have hnone : j.at? name = none := hj name (by simp)
    obtain ⟨v', hv, hiff⟩ := c.law v
    cases hw : written v with
    | true =>
      simp only [if_true, Json.at?_set_self, Option.bind_some, hv]
      exact hiff
    | false => simp [hnone]

/-- A member that is neither written nor read. -/
def unlisted (dflt : α) : Part α where
  keys := []
  write _ j := j
  read _ := dflt
  wire := id
  Kept v := v = dflt
  frame _ _ _ _ := rfl
  congr _ _ _ := rfl
  law _ _ _ := eq_comm

end Part

/-- A part with its type. -/
structure Field where
  {type : Type}
  part : Part type

namespace Field

/-- The values of a list of members. -/
def Values : List Field → Type
  | [] => Unit
  | f :: fs => f.type × Values fs

def keys (fs : List Field) : List String := fs.flatMap fun f => f.part.keys

end Field

/-- The members of a list, no name of which is used twice, with the names. -/
def Part.ofFields :
    (fs : List Field) → (Field.keys fs).Nodup → { p : Part (Field.Values fs) // p.keys = Field.keys fs }
  | [], _ => ⟨nil, rfl⟩
  | f :: fs, h =>
    have hd := List.nodup_append.mp h
    let p := ofFields fs hd.2.1
    ⟨f.part.append p.1 fun k hk hkp => hd.2.2 k hk k (show k ∈ Field.keys fs from p.2 ▸ hkp) rfl,
      congrArg (f.part.keys ++ ·) p.2⟩

/-- An object type: its members, with names of their own. -/
structure Schema where
  fields : List Field
  distinct : (Field.keys fields).Nodup

namespace Schema

def Value (s : Schema) : Type := Field.Values s.fields

def part (s : Schema) : Part s.Value := (Part.ofFields s.fields s.distinct).1

theorem keys_part (s : Schema) : s.part.keys = Field.keys s.fields := (Part.ofFields s.fields s.distinct).2

/-- An object of its own. Nothing written leaves `null`. -/
def codec (s : Schema) : Codec s.Value where
  enc v := s.part.write v .null
  dec j := some (s.part.read j)
  unset _ := false
  wire := s.part.wire
  Kept := s.part.Kept
  law v := ⟨_, rfl, s.part.law v .null fun _ _ => rfl⟩

end Schema

/-! ### What loses nothing -/

def Codec.Lossless {α : Type} (c : Codec α) : Prop := ∀ v, c.Kept v

def Part.Lossless {α : Type} (p : Part α) : Prop := ∀ v, p.Kept v

section lossless
variable {α β γ : Type}

@[simp] theorem Codec.lossless_exact (enc : α → Json) (dec : Json → Option α) (unset : α → Bool)
    (h : ∀ v, dec (enc v) = some v) : (exact enc dec unset h).Lossless := fun _ => trivial

@[simp] theorem Codec.lossless_list {c : Codec α} (h : c.Lossless) : c.list.Lossless := fun _ v _ => h v

@[simp] theorem Codec.lossless_pair {c : Codec α} {d : Codec β} (hc : c.Lossless) (hd : d.Lossless) :
    (c.pair d).Lossless := fun v => ⟨hc v.1, hd v.2⟩

@[simp] theorem Codec.lossless_triple {c : Codec α} {d : Codec β} {e : Codec γ} (hc : c.Lossless) (hd : d.Lossless)
    (he : e.Lossless) : (c.triple d e).Lossless := fun v => ⟨hc v.1, hd v.2.1, he v.2.2⟩

/-- Where the default is the value that is left out, a member loses what its codec loses. -/
theorem Part.lossless_field (name : String) (c : Codec α) (dflt : α)
    (h : c.dec .null = some dflt ∨ ∀ v, (c.enc v).isNull = false) (hu : ∀ v, c.unset v = true → v = dflt)
    (hc : ∀ v, c.unset v = false → c.Kept v) : (field name c dflt h).Lossless := by
  intro v
  change if c.unset v then c.wire dflt = c.wire v else c.Kept v
  split
  · rw [hu v ‹_›]
  · exact hc v (Bool.eq_false_iff.mpr ‹_›)

theorem Part.update_kept {name : String} {c : Codec α} {written : α → Bool} {dflt v : α}
    (hw : written v = true → c.Kept v) (hn : written v = false → c.wire dflt = c.wire v) :
    (update name c written dflt).Kept v := by
  change if written v then c.Kept v else c.wire dflt = c.wire v
  split
  · exact hw ‹_›
  · exact hn (Bool.eq_false_iff.mpr ‹_›)

/-- The values of a list of members are kept if each of them is. -/
theorem Part.kept_cons {f : Field} {fs : List Field} {h : (Field.keys (f :: fs)).Nodup} {v : Field.Values (f :: fs)} :
    (ofFields (f :: fs) h).1.Kept v ↔
      f.part.Kept v.1 ∧ (ofFields fs (List.nodup_append.mp h).2.1).1.Kept v.2 := Iff.rfl

theorem Part.lossless_ofFields {fs : List Field} {h : (Field.keys fs).Nodup} (hf : ∀ f ∈ fs, f.part.Lossless) :
    (ofFields fs h).1.Lossless := by
  induction fs with
  | nil => exact fun _ => trivial
  | cons f fs ih =>
    obtain ⟨hhead, htail⟩ := List.forall_mem_cons.mp hf
    exact fun v => kept_cons.mpr ⟨hhead v.1, ih htail v.2⟩

theorem Schema.lossless {s : Schema} (h : ∀ f ∈ s.fields, f.part.Lossless) : s.codec.Lossless :=
  Part.lossless_ofFields h

end lossless
end CloudAgent
