/-
**Virtual network devices.**

With the `rmnet` driver of the kernel, a data call gets a network device of its own, which the
program asks for in one netlink message.  The message has attributes inside of attributes, and is
put together in a structure on the stack.

* `QuectelCM.newvndMessage` — the message that `rtrmnet_ctl_newvnd` puts together;
* `QuectelCM.LinkOptions` — the options that the kernel is to see;
* `QuectelCM.newvndMessage_built` — the bytes of the message;
* `QuectelCM.newvnd_parse` — **the kernel reads the options, and nothing else, when the message fits
  into the structure**;
* `QuectelCM.newvnd_fits_iff` — for which names it does.
-/
import OpenwrtPackage.Lib.Netlink

set_option relaxedAutoImplicit false
set_option autoImplicit false

namespace QuectelCM

open Bytes Host Memory Netlink

/-! ### The message -/

def iflaLink : ℕ := 5
def iflaIfname : ℕ := 3
def iflaLinkinfo : ℕ := 18
def iflaInfoKind : ℕ := 1
def iflaInfoData : ℕ := 2
def iflaVlanId : ℕ := 1
def iflaVlanFlags : ℕ := 2
/-- `__IFLA_RMNET_MAX` -/
def iflaRmnetUlAggParams : ℕ := 3

/-- `NLMSG_LENGTH(sizeof(struct ifinfomsg))` -/
def ifinfoEnd : ℕ := 32

/-- `sizeof(struct nlmsg)` -/
def sizeofNlmsg : ℕ := 532

/-- The string `rmnet`, without the NUL. -/
def kind : List UInt8 := [0x72, 0x6D, 0x6E, 0x65, 0x74]

/-- What the caller gives: the number of the device, the name, `index` and the configuration. -/
structure NewVnd where
  devindex : UInt32
  vndname : List UInt8
  index : UInt8
  flagconfig : UInt32
  ulAggCnt : UInt32
  ulAggSize : UInt32

/-- `struct ifla_vlan_flags` -/
def vlanFlags (e : Endian) (v : NewVnd) : List UInt8 :=
  bytes32 e v.flagconfig ++ bytes32 e v.flagconfig

/-- `struct rmnet_egress_agg_params` -/
def aggParams (e : Endian) (v : NewVnd) : List UInt8 :=
  bytes16 e v.ulAggSize.toNat ++ bytes16 e v.ulAggCnt.toNat ++ bytes32 e 3000000

/-- The attributes inside of `IFLA_INFO_DATA`. -/
def addInfoData (e : Endian) (v : NewVnd) (r : Message) : Message :=
  let r := addAttr e (rtaLength 2) iflaVlanId (bytes16 e v.index.toNat) r
  let r := if v.flagconfig ≠ 0 then addAttr e (rtaLength 8) iflaVlanFlags (vlanFlags e v) r else r
  if 1 < v.ulAggCnt then addAttr e (rtaLength 8) iflaRmnetUlAggParams (aggParams e v) r else r

/-- The attributes that `rtrmnet_ctl_newvnd` writes behind the two headers. -/
def newvndMessage (e : Endian) (v : NewVnd) : Message :=
  let r : Message := ⟨fun _ => 0, ifinfoEnd⟩
  let r := addAttr e (align (rtaLength 4)) iflaLink (bytes32 e v.devindex) r
  let r := addAttr e (align (rtaLength (v.vndname.length + 1))) iflaIfname (v.vndname ++ [0]) r
  let linkinfo := align r.len
  let r := addAttr e (align (rtaLength 0)) iflaLinkinfo [] r
  let r := addAttr e (align (rtaLength kind.length)) iflaInfoKind kind r
  let datainfo := align r.len
  let r := addAttr e (align (rtaLength 0)) iflaInfoData [] r
  let r := addInfoData e v r
  setLength e linkinfo (setLength e datainfo r)

/-! ### What the kernel is to see -/

/-- The options of `rmnet`: `index`, the flags if there are any, and the aggregation, if more than
one packet is put together. -/
def infoData (e : Endian) (v : NewVnd) : List Attr :=
  ⟨iflaVlanId, bytes16 e v.index.toNat⟩ ::
    ((if v.flagconfig ≠ 0 then [⟨iflaVlanFlags, vlanFlags e v⟩] else []) ++
      if 1 < v.ulAggCnt then [⟨iflaRmnetUlAggParams, aggParams e v⟩] else [])

/-- The kind of the device, and its options. -/
def linkInfo (e : Endian) (v : NewVnd) : List Attr :=
  [⟨iflaInfoKind, kind ++ [0, 0, 0]⟩, ⟨iflaInfoData, encodeAll e (infoData e v)⟩]

/-- The name, with at least one NUL behind it. -/
def ifname (v : NewVnd) : List UInt8 := v.vndname ++ [0] ++ padding (v.vndname.length + 1)

def link (e : Endian) (v : NewVnd) : List Attr :=
  [⟨iflaLink, bytes32 e v.devindex⟩, ⟨iflaIfname, ifname v⟩,
    ⟨iflaLinkinfo, encodeAll e (linkInfo e v)⟩]

/-! ### The bytes -/

@[simp] theorem length_vlanFlags (e : Endian) (v : NewVnd) : (vlanFlags e v).length = 8 := by
  rw [vlanFlags, List.length_append, bytes32_length]

@[simp] theorem length_aggParams (e : Endian) (v : NewVnd) : (aggParams e v).length = 8 := by
  rw [aggParams, List.length_append, List.length_append, length_bytes16, length_bytes16,
    bytes32_length]

theorem built_empty : Built ifinfoEnd ⟨fun _ => 0, ifinfoEnd⟩ [] :=
  ⟨rfl, rfl, rfl, fun _ _ => rfl⟩

/-- An attribute whose length is that of its payload. -/
theorem built_addAttr_leaf {base : ℕ} {r : Message} {msg : List UInt8} (h : Built base r msg)
    (e : Endian) (type : ℕ) (payload : List UInt8) :
    Built base (addAttr e (rtaLength payload.length) type payload r)
      (msg ++ encode e ⟨type, payload⟩) :=
  built_addAttr h e (rtaLength payload.length) type payload

/-- An attribute whose length counts the zeros too. -/
theorem built_addAttr_padded {base : ℕ} {r : Message} {msg : List UInt8} (h : Built base r msg)
    (e : Endian) (type : ℕ) (payload : List UInt8) :
    Built base (addAttr e (align (rtaLength payload.length)) type payload r)
      (msg ++ encode e ⟨type, payload ++ padding payload.length⟩) := by
  have hle := le_align payload.length
  have hlen : (payload ++ padding payload.length).length = align payload.length := by
    rw [List.length_append, length_padding]
    omega
  have hmod : (payload ++ padding payload.length).length % 4 = 0 := by
    rw [hlen]
    exact align_mod _
  have hbuilt := built_addAttr h e (align (rtaLength payload.length)) type payload
  have hsame : rtaLength (align payload.length) = align (rtaLength payload.length) :=
    (align_rtaLength payload.length).symm
  rw [encode_of_mod e hmod, hlen, ← List.append_assoc (header _ _ _), hsame]
  exact hbuilt

/-- An attribute that is to have others inside. -/
theorem built_addAttr_nest {base : ℕ} {r : Message} {msg : List UInt8} (h : Built base r msg)
    (e : Endian) (type : ℕ) :
    Built base (addAttr e (align (rtaLength 0)) type [] r) (msg ++ header e 4 type) := by
  have hbuilt := built_addAttr h e (align (rtaLength 0)) type []
  have hpadding : padding ([] : List UInt8).length = [] := rfl
  rw [List.append_nil, hpadding, List.append_nil] at hbuilt
  exact hbuilt

/-- The others are inside. -/
theorem built_setLength_nest {base : ℕ} {r : Message} {front : List UInt8} {e : Endian} {type : ℕ}
    {as : List Attr} (h : Built base r (front ++ header e 4 type ++ encodeAll e as)) :
    Built base (setLength e (base + front.length) r)
      (front ++ encode e ⟨type, encodeAll e as⟩) := by
  have hbytes : front ++ header e 4 type ++ encodeAll e as =
      front ++ (bytes16 e 4 ++ (bytes16 e type ++ encodeAll e as)) := by
    rw [header, List.append_assoc, List.append_assoc]
  rw [hbytes] at h
  have hset := built_setLength h
  have hlen : 2 + (bytes16 e type ++ encodeAll e as).length =
      rtaLength (encodeAll e as).length := by
    rw [List.length_append, length_bytes16, rtaLength]
    omega
  rw [hlen] at hset
  rw [encode_of_mod e (length_encodeAll_mod e as), header, List.append_assoc]
  exact hset

theorem built_addInfoData {base : ℕ} {r : Message} {msg : List UInt8} (h : Built base r msg)
    (e : Endian) (v : NewVnd) :
    Built base (addInfoData e v r) (msg ++ encodeAll e (infoData e v)) := by
  have hid : Built base (addAttr e (rtaLength 2) iflaVlanId (bytes16 e v.index.toNat) r)
      (msg ++ encode e ⟨iflaVlanId, bytes16 e v.index.toNat⟩) := by
    have hleaf := built_addAttr_leaf h e iflaVlanId (bytes16 e v.index.toNat)
    rw [length_bytes16] at hleaf
    exact hleaf
  have hflags : ∀ {r : Message} {msg : List UInt8}, Built base r msg →
      Built base (if v.flagconfig ≠ 0 then addAttr e (rtaLength 8) iflaVlanFlags (vlanFlags e v) r
        else r) (msg ++ encodeAll e (if v.flagconfig ≠ 0 then [⟨iflaVlanFlags, vlanFlags e v⟩]
          else [])) := by
    intro r msg h
    split
    · have hleaf := built_addAttr_leaf h e iflaVlanFlags (vlanFlags e v)
      rw [length_vlanFlags] at hleaf
      rw [encodeAll, List.flatMap_singleton]
      exact hleaf
    · rw [encodeAll, List.flatMap_nil, List.append_nil]
      exact h
  have hagg : ∀ {r : Message} {msg : List UInt8}, Built base r msg →
      Built base (if 1 < v.ulAggCnt then
          addAttr e (rtaLength 8) iflaRmnetUlAggParams (aggParams e v) r else r)
        (msg ++ encodeAll e (if 1 < v.ulAggCnt then [⟨iflaRmnetUlAggParams, aggParams e v⟩]
          else [])) := by
    intro r msg h
    split
    · have hleaf := built_addAttr_leaf h e iflaRmnetUlAggParams (aggParams e v)
      rw [length_aggParams] at hleaf
      rw [encodeAll, List.flatMap_singleton]
      exact hleaf
    · rw [encodeAll, List.flatMap_nil, List.append_nil]
      exact h
  have hall := hagg (hflags hid)
  rw [infoData, encodeAll, List.flatMap_cons, List.flatMap_append]
  rw [List.append_assoc, List.append_assoc] at hall
  exact hall

/-- **The bytes of the message.** -/
theorem newvndMessage_built (e : Endian) (v : NewVnd) :
    Built ifinfoEnd (newvndMessage e v) (encodeAll e (link e v)) := by
  have hdev : Built ifinfoEnd
      (addAttr e (align (rtaLength 4)) iflaLink (bytes32 e v.devindex) ⟨fun _ => 0, ifinfoEnd⟩)
      (encode e ⟨iflaLink, bytes32 e v.devindex⟩) := by
    have hleaf := built_addAttr_leaf built_empty e iflaLink (bytes32 e v.devindex)
    rw [bytes32_length] at hleaf
    exact hleaf
  have hname := built_addAttr_padded hdev e iflaIfname (v.vndname ++ [0])
  rw [List.length_append, List.length_singleton] at hname
  rw [newvndMessage]
  generalize addAttr e (align (rtaLength (v.vndname.length + 1))) iflaIfname (v.vndname ++ [0])
    _ = named at hname ⊢
  have hkind := built_addAttr_padded (built_addAttr_nest hname e iflaLinkinfo) e iflaInfoKind kind
  generalize addAttr e (align (rtaLength kind.length)) iflaInfoKind kind _ = kinded at hkind ⊢
  -- the two places where a length is written later
  have hlinkinfo := (align_of_mod hname.aligned).trans hname.len
  have hdatainfo := (align_of_mod hkind.aligned).trans hkind.len
  have hdata := built_setLength_nest
    (built_addInfoData (built_addAttr_nest hkind e iflaInfoData) e v)
  rw [hlinkinfo, hdatainfo]
  generalize setLength e (ifinfoEnd + _) _ = inner at hdata ⊢
  have hinner : encodeAll e (linkInfo e v) =
      encode e ⟨iflaInfoKind, kind ++ padding kind.length⟩ ++
        encode e ⟨iflaInfoData, encodeAll e (infoData e v)⟩ := by
    have hpadding : padding kind.length = [0, 0, 0] := rfl
    rw [linkInfo, encodeAll, List.flatMap_cons, List.flatMap_singleton, hpadding]
  rw [List.append_assoc, ← hinner] at hdata
  have hlink : encodeAll e (link e v) =
      encode e ⟨iflaLink, bytes32 e v.devindex⟩ ++
        encode e ⟨iflaIfname, v.vndname ++ [0] ++ padding (v.vndname.length + 1)⟩ ++
          encode e ⟨iflaLinkinfo, encodeAll e (linkInfo e v)⟩ := by
    rw [link, encodeAll, List.flatMap_cons, List.flatMap_cons, List.flatMap_singleton, ifname,
      ← List.append_assoc (encode _ _)]
  rw [hlink]
  exact built_setLength_nest hdata

/-! ### What the kernel reads -/

/-- `nlmsg_len`, and the bytes behind the headers that are sent. -/
def nlmsgLen (e : Endian) (v : NewVnd) : ℕ := (newvndMessage e v).len

def sentBytes (e : Endian) (v : NewVnd) : List UInt8 :=
  load (newvndMessage e v).mem ifinfoEnd (nlmsgLen e v - ifinfoEnd)

theorem sentBytes_eq (e : Endian) (v : NewVnd) : sentBytes e v = encodeAll e (link e v) := by
  have hbuilt := newvndMessage_built e v
  have hlen : nlmsgLen e v - ifinfoEnd = (encodeAll e (link e v)).length := by
    rw [nlmsgLen, hbuilt.len, Nat.add_sub_cancel_left]
  rw [sentBytes, hlen]
  exact hbuilt.holds

/-- How long the options are. -/
def infoDataLen (v : NewVnd) : ℕ :=
  8 + (if v.flagconfig ≠ 0 then 12 else 0) + if 1 < v.ulAggCnt then 12 else 0

theorem length_infoData (e : Endian) (v : NewVnd) :
    (encodeAll e (infoData e v)).length = infoDataLen v := by
  have hnil : (encodeAll e []).length = 0 := rfl
  have htwo : align 2 = 4 := rfl
  have height : align 8 = 8 := rfl
  rw [infoData, length_encodeAll_cons, length_bytes16, infoDataLen, htwo]
  split
  · split
    · rw [List.singleton_append, length_encodeAll_cons, length_encodeAll_cons, hnil,
        length_vlanFlags, length_aggParams, height]
    · rw [List.append_nil, length_encodeAll_cons, hnil, length_vlanFlags, height]
  · split
    · rw [List.nil_append, length_encodeAll_cons, hnil, length_aggParams, height]
    · rw [List.append_nil, hnil]

theorem length_ifname (v : NewVnd) : (ifname v).length = align (v.vndname.length + 1) := by
  have hle := le_align (v.vndname.length + 1)
  rw [ifname, List.length_append, List.length_append, length_padding, List.length_singleton]
  omega

theorem infoDataLen_mod (v : NewVnd) : align (infoDataLen v) = infoDataLen v := by
  refine align_of_mod ?_
  rw [infoDataLen]
  split
  · split
    · rfl
    · rfl
  · split
    · rfl
    · rfl

theorem length_linkInfo (e : Endian) (v : NewVnd) :
    (encodeAll e (linkInfo e v)).length = 16 + infoDataLen v := by
  have hkind : align (kind ++ [0, 0, 0]).length = 8 := rfl
  have hnil : (encodeAll e []).length = 0 := rfl
  rw [linkInfo, length_encodeAll_cons, length_encodeAll_cons, hkind, hnil, length_infoData,
    infoDataLen_mod]
  omega

theorem nlmsgLen_eq (e : Endian) (v : NewVnd) :
    nlmsgLen e v = 64 + align (v.vndname.length + 1) + infoDataLen v := by
  have hdev : align (bytes32 e v.devindex).length = 4 := by
    rw [bytes32_length]
    rfl
  have hname : align (ifname v).length = align (v.vndname.length + 1) := by
    rw [length_ifname, align_of_mod (align_mod _)]
  have hinfo : align (encodeAll e (linkInfo e v)).length = 16 + infoDataLen v := by
    rw [align_of_mod (length_encodeAll_mod e _), length_linkInfo]
  have hnil : (encodeAll e []).length = 0 := rfl
  rw [nlmsgLen, (newvndMessage_built e v).len, link, length_encodeAll_cons, length_encodeAll_cons,
    length_encodeAll_cons, hdev, hname, hinfo, hnil, ifinfoEnd]
  omega

/-- **The message fits into the structure** for these names. -/
theorem newvnd_fits_iff (e : Endian) (v : NewVnd) :
    nlmsgLen e v ≤ sizeofNlmsg ↔ align (v.vndname.length + 1) + infoDataLen v ≤ 468 := by
  rw [nlmsgLen_eq, sizeofNlmsg]
  omega

theorem infoData_fits (e : Endian) (v : NewVnd) : ∀ a ∈ infoData e v, a.Fits := by
  intro a ha
  have hflags : ∀ a ∈ if v.flagconfig ≠ 0 then [Attr.mk iflaVlanFlags (vlanFlags e v)] else [],
      a.Fits := by
    intro a ha
    split at ha
    · rw [List.mem_singleton.1 ha]
      exact Attr.fits_mk (by decide) (by rw [length_vlanFlags]; decide)
    · cases ha
  have hagg : ∀ a ∈ if 1 < v.ulAggCnt then [Attr.mk iflaRmnetUlAggParams (aggParams e v)] else [],
      a.Fits := by
    intro a ha
    split at ha
    · rw [List.mem_singleton.1 ha]
      exact Attr.fits_mk (by decide) (by rw [length_aggParams]; decide)
    · cases ha
  rw [infoData] at ha
  rcases List.mem_cons.1 ha with rfl | ha
  · exact Attr.fits_mk (by decide) (by rw [length_bytes16]; decide)
  · exact (List.mem_append.1 ha).elim (hflags a) (hagg a)

/-- **The kernel reads the options, and nothing else**: the device, the name and the kind, and
inside of them the options of the kind, when the message fits into the structure. -/
theorem newvnd_parse (e : Endian) (v : NewVnd) (h : nlmsgLen e v ≤ sizeofNlmsg) :
    parse e (sentBytes e v) = link e v ∧ parse e (encodeAll e (linkInfo e v)) = linkInfo e v ∧
      parse e (encodeAll e (infoData e v)) = infoData e v := by
  rw [nlmsgLen_eq, sizeofNlmsg] at h
  have hlink : ∀ a ∈ link e v, a.Fits := by
    simp only [link, List.forall_mem_cons, Attr.Fits, rtaLength, bytes32_length, length_ifname,
      length_linkInfo]
    refine ⟨⟨by decide, by decide⟩, ⟨by decide, by omega⟩, ⟨by decide, by omega⟩, ?_⟩
    exact fun _ h => absurd h List.not_mem_nil
  have hinfo : ∀ a ∈ linkInfo e v, a.Fits := by
    simp only [linkInfo, List.forall_mem_cons, Attr.Fits, rtaLength, length_infoData]
    refine ⟨⟨by decide, by decide⟩, ⟨by decide, by omega⟩, ?_⟩
    exact fun _ h => absurd h List.not_mem_nil
  refine ⟨?_, parse_encodeAll e hinfo, parse_encodeAll e (infoData_fits e v)⟩
  rw [sentBytes_eq]
  exact parse_encodeAll e hlink

/-- The first data call of a module: flags, and no aggregation. -/
def rmnetData1 : NewVnd :=
  ⟨7, [0x72, 0x6D, 0x6E, 0x65, 0x74, 0x5F, 0x64, 0x61, 0x74, 0x61, 0x31], 0x81, 0x31, 0, 0⟩

theorem newvnd_parse_rmnetData1 :
    parse .little (sentBytes .little rmnetData1) = link .little rmnetData1 ∧
      parse .little (encodeAll .little (linkInfo .little rmnetData1)) =
        linkInfo .little rmnetData1 ∧
      parse .little (encodeAll .little (infoData .little rmnetData1)) =
        infoData .little rmnetData1 :=
  newvnd_parse .little rmnetData1 ((newvnd_fits_iff .little rmnetData1).2 (by decide))

end QuectelCM
