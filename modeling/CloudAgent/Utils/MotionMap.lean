import CloudAgent.Utils.Packbits
import CloudAgent.Utils.Unpackbits

/-! Motion maps: a grid is packed, and encoded in base64. -/
namespace CloudAgent.Utils.MotionMap
open PackBits Packbits

/-- `map::pack`, with `base64_encode`; the source ends with the null of the string. `none`: `packbits` accesses memory
outside of the string, its own buffer, or the bytes that are allocated for what it writes. -/
def pack (base64Encode : List Int8 → String) (unpackedGrid : List Int8) : Option String :=
  (packbits (unpackedGrid ++ [0]) (toCInt unpackedGrid.length)).bind fun p =>
    let allocated := unpackedGrid.length + 1
    if allocated < p.dest.length then none
    else
      let packedBits := p.dest ++ List.replicate (allocated - p.dest.length) 0
      some (if 0 < p.putsize then base64Encode (packedBits.take p.putsize.toNat) else "")

/-- `map::unpack`, with `base64_decode`. `none`: `unpackbits` reads memory outside of the decoded string. -/
def unpack (base64Decode : String → List Int8) (packedGrid : String) (outputLen : ℕ) : Option (List Int8) :=
  let (written, ends) := unpackbits (base64Decode packedGrid ++ [0]) (toCInt outputLen)
  if ends = .outside then none
  else some (written ++ List.replicate (outputLen - written.length) 0 ++ [0])

variable {g : List Int8}

/-- `packbits` reads the bytes of the grid and no others, does not leave its own buffer, and writes no more than is
allocated for it. -/
def PackFits (g : List Int8) : Prop :=
  ∃ r, packbits (g ++ [0]) (toCInt g.length) = some r ∧ r.rest = [0] ∧ r.dest.length ≤ g.length + 1

theorem packFits_of_cost (hg : g ≠ []) (hlen : g.length < 2 ^ 31) (hcost : literals (packets g) ≤ 1 + saved (packets g)) :
    PackFits g := by
  have hsize := length_encode_packets g
  refine ⟨_, by rw [toCInt_of_lt hlen]; exact packbits_eq hg [0], rfl, ?_⟩
  dsimp only
  omega

/-- A grid is packed within what is allocated for it exactly if it is not empty, its length is an `int`, and the literals
that it is cut into are no more than one and the bytes that its runs have beyond two. -/
theorem packFits_iff (g : List Int8) :
    PackFits g ↔ (g ≠ [] ∧ g.length < 2 ^ 31) ∧ literals (packets g) ≤ 1 + saved (packets g) := by
  refine ⟨?_, fun ⟨⟨hg, hlen⟩, hcost⟩ => packFits_of_cost hg hlen hcost⟩
  rintro ⟨r, hr, hrest, hdest⟩
  obtain ⟨hpos, hlen⟩ := packbits_eq_some hr
  rw [hrest, List.length_append, List.length_singleton] at hlen
  have hlt := toCInt_lt g.length
  have hg : g ≠ [] := by
    rintro rfl
    simp [toCInt] at hpos
  have hg' : g.length < 2 ^ 31 := by omega
  rw [toCInt_of_lt hg', packbits_eq hg] at hr
  obtain rfl := Option.some.inj hr
  have hsize := length_encode_packets g
  dsimp only at hdest
  exact ⟨⟨hg, hg'⟩, by omega⟩

/-- A grid that is no longer than a packet is always packed within what is allocated. -/
theorem packFits_of_length_le (hg : g ≠ []) (h : g.length ≤ 128) : PackFits g :=
  packFits_of_cost hg (by omega) (literals_le h).1

/-- The empty grid, and 129 bytes with no two neighbours that are equal. -/
theorem not_packFits : ¬ PackFits [] ∧ ¬ PackFits ((List.replicate 64 [0, 1]).flatten ++ [0]) := by
  constructor
  · rintro ⟨r, hr, -⟩
    cases hr
  · rintro ⟨r, hr, -, hdest⟩
    have hlen : (packbits ((List.replicate 64 [0, 1]).flatten ++ [0] ++ [0]) (toCInt 129)).map (·.dest.length) =
      some 131 := by decide +kernel
    have hr' : packbits ((List.replicate 64 [0, 1]).flatten ++ [0] ++ [0]) (toCInt 129) = some r := hr
    rw [hr'] at hlen
    have hlen' : r.dest.length = 131 := Option.some.inj hlen
    have hg : ((List.replicate 64 [(0 : Int8), 1]).flatten ++ [0]).length = 129 := by decide +kernel
    omega

/-- `unpackbits` reads only bytes of the decoded string, and writes no more than was asked for. -/
def UnpackStaysInside (base64Decode : String → List Int8) (packedGrid : String) (outputLen : ℕ) : Prop :=
  let (written, ends) := unpackbits (base64Decode packedGrid) (toCInt outputLen)
  ends ≠ .outside ∧ written.length ≤ outputLen

/-- Unpacking stays inside exactly if the whole packets of the decoded string stand for as many bytes as are asked for,
or the packet that is cut off at its end announces more than are left. -/
theorem unpackStaysInside_iff (base64Decode : String → List Int8) (packedGrid : String) (outputLen : ℕ) :
    UnpackStaysInside base64Decode packedGrid outputLen ↔
      toCInt outputLen ≤ total (base64Decode packedGrid) ∨
        toCInt outputLen < total (base64Decode packedGrid) + cutOff (base64Decode packedGrid) := by
  have hle := length_unpackbits_le (base64Decode packedGrid) (toCInt outputLen)
  have hout := toCInt_le outputLen
  have hwritten : (unpackbits (base64Decode packedGrid) (toCInt outputLen)).1.length ≤ outputLen := by omega
  rw [← unpackbits_ne_outside_iff]
  exact and_iff_left hwritten

/-- A header for six bytes and nothing behind it. -/
theorem not_unpackStaysInside : ¬ UnpackStaysInside (fun s => if s = "BQ==" then [5] else []) "BQ==" 6 := by
  rintro ⟨hin, -⟩
  refine hin ?_
  have hstuck : next [5] = none := by decide
  have hread : unpackbits [5] (toCInt 6) = ([], .outside) := by
    rw [unpackbits_of_stuck hstuck (by decide)]
    decide
  exact congrArg Prod.snd hread

/-- A grid that is packed and unpacked, where base64 gives the packed bytes back. -/
theorem unpack_pack (base64Encode : List Int8 → String) (base64Decode : String → List Int8) (hg : g ≠ [])
    (hlen : g.length < 2 ^ 31) (h64 : base64Decode (base64Encode (encode (packets g))) = encode (packets g)) :
    ∃ r, packbits (g ++ [0]) (toCInt g.length) = some r ∧ unpackbits r.dest (toCInt g.length) = (g, .done []) ∧
      (r.dest.length ≤ g.length + 1 → r.dest.length < 2 ^ 31 → ∃ s ∈ pack base64Encode g,
        ∃ out ∈ unpack base64Decode s g.length, out.take g.length = g) := by
  have hpack := packbits_eq hg [0]
  have hunpack (l : List Int8) : unpackbits (encode (packets g) ++ l) g.length = (g, .done l) := by
    have h := unpackbits_encode (fun p (hp : p ∈ packets g) => packets_valid hp) l
    rwa [expand_packets] at h
  rw [toCInt_of_lt hlen]
  refine ⟨_, hpack, ?_, fun hfits hint => ⟨base64Encode (encode (packets g)), ?_, g ++ [0], ?_, List.take_left⟩⟩
  · have h := hunpack []
    rwa [List.append_nil] at h
  · dsimp only at hfits hint
    have hpos : 0 < (encode (packets g)).length := by
      obtain ⟨a, l, rfl⟩ := List.exists_cons_of_ne_nil hg
      rw [packets_cons, encode_cons, List.length_append, Packet.encode, List.length_cons]
      omega
    rw [pack, toCInt_of_lt hlen, hpack, Option.bind_some]
    dsimp only
    rw [if_neg (Nat.not_lt.mpr hfits), toCInt_of_lt hint, if_pos (by omega), Int.toNat_natCast, List.take_left]
    rfl
  · rw [unpack, toCInt_of_lt hlen, h64, hunpack]
    simp

/-- Four equal bytes. -/
theorem unpack_pack_run : ∃ s ∈ pack (fun l => if l = [-3, 65] then "/UE=" else "") [65, 65, 65, 65],
    ∃ out ∈ unpack (fun s => if s = "/UE=" then [-3, 65] else []) s 4, out.take 4 = [65, 65, 65, 65] := by
  have hpackets : packets [65, 65, 65, 65] = [Packet.run 4 (65 : Int8)] := by
    have h := packets_run (a := (65 : Int8)) (l := []) (n := 4) (by decide) (by decide) (.inr (by simp))
    rwa [packets_nil] at h
  obtain ⟨r, hr, -, hrest⟩ := unpack_pack (g := [65, 65, 65, 65]) (fun l => if l = [-3, 65] then "/UE=" else "")
    (fun s => if s = "/UE=" then [-3, 65] else []) (by decide) (by decide) (by rw [hpackets]; decide)
  have hr' : packbits ([65, 65, 65, 65] ++ [0]) (toCInt 4) = some ⟨[-3, 65], 2, [0]⟩ := by decide
  obtain rfl := Option.some.inj (hr'.symm.trans hr)
  exact hrest (by decide) (by decide)

/-- With 2^31 bytes the size is negative. -/
theorem not_unpack_pack : ¬ ∀ g ≠ [],
    ∃ r, packbits (g ++ [0]) (toCInt g.length) = some r ∧ unpackbits r.dest (toCInt g.length) = (g, .done []) := by
  intro h
  obtain ⟨g, hlen⟩ : ∃ g : List Int8, g.length = 2 ^ 31 := ⟨List.replicate (2 ^ 31) 0, List.length_replicate⟩
  have hg : g ≠ [] := by
    rintro rfl
    cases hlen
  obtain ⟨r, hr, -⟩ := h g hg
  obtain ⟨hpos, -⟩ := packbits_eq_some hr
  have hsize : toCInt g.length = -2 ^ 31 := by
    rw [hlen]
    decide
  omega

end CloudAgent.Utils.MotionMap
