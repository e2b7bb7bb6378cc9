import DeviceClient.Proofs.Discovery.Link
import DeviceClient.Proofs.Payload.Capacity
import DeviceClient.Proofs.Payload.RoundTrip

namespace DeviceClient

namespace Representation

theorem get?_append_cons {before after : Representation} {name : String} {v : Value}
    (h : ∀ p ∈ before, p.1 ≠ name) : get? (before ++ (name, v) :: after) name = some v := by
  induction before with
  | nil => simp [get?]
  | cons p before ih =>
    obtain ⟨other, w⟩ := p
    have hother : (name == other) = false := by
      simpa using (h (other, w) List.mem_cons_self).symm
    have htail := ih fun p hp => h p (List.mem_cons_of_mem _ hp)
    rw [get?, List.cons_append, List.lookup_cons, hother]
    exact htail

/-- An array of objects is found again, whether it is empty or not. -/
theorem getObjects?_of_normal {r : Representation} {name : String} {members : List Representation}
    (h : r.get? name = some (Value.objects members).normal)
    (hmembers : ∀ m ∈ members, (Value.object m).Unambiguous) : r.getObjects? name = some members := by
  cases members with
  | nil => rw [getObjects?, h]; rfl
  | cons m ms =>
    have hnormal := (Value.Unambiguous.objects (List.cons_ne_nil m ms) hmembers).normal_eq
    rw [getObjects?, h, hnormal]

end Representation

namespace Payload

open Resource (link)

/-- The payloads that list some resources: an array of links, or an object with the links as one of its
properties, the first of this name. -/
inductive Advertises (rs : List Resource) : Payload → Prop
  | array : Advertises rs (.objects (rs.map link))
  | object {before after : Representation} (hnames : ∀ p ∈ before, p.1 ≠ "links")
      (hothers : (Value.object (before ++ after)).WellFormed)
      (hheight : (Value.object (before ++ after)).height ≤ 16) :
      Advertises rs (.object (before ++ ("links", .objects (rs.map link)) :: after))

namespace Advertises

variable {rs : List Resource} {p : Payload}

theorem wellFormed (h : Advertises rs p) : p.WellFormed := by
  have hlinks : (Value.objects (rs.map link)).WellFormed :=
    .objects <| List.forall_mem_map.mpr fun r _ => r.wellFormed_link
  cases h with
  | array => exact hlinks
  | object hfirst hothers hheight =>
    cases hothers with
    | object hnames hvalues =>
      obtain ⟨hnames, hnames'⟩ := List.forall_mem_append.mp hnames
      obtain ⟨hvalues, hvalues'⟩ := List.forall_mem_append.mp hvalues
      have hlinksname : "links" ≠ "" := by decide
      refine .object ?_ ?_
      · exact List.forall_mem_append.mpr ⟨hnames, List.forall_mem_cons.mpr ⟨hlinksname, hnames'⟩⟩
      · exact List.forall_mem_append.mpr ⟨hvalues, List.forall_mem_cons.mpr ⟨hlinks, hvalues'⟩⟩

theorem height_le (h : Advertises rs p) : p.height ≤ Decoding.maxDepth := by
  have hlinks : Value.heightOfObjects (rs.map link) ≤ 3 :=
    Value.heightOfObjects_le_iff.mpr <| List.forall_mem_map.mpr fun r _ =>
      Nat.succ_le_succ r.height_link
  cases h with
  | array => exact Nat.le_trans (Nat.succ_le_succ hlinks) (by decide)
  | object hfirst hothers hheight =>
    have hvalues := Value.heightOfProperties_le_iff.mp (Nat.le_of_succ_le_succ hheight)
    obtain ⟨hbefore, hafter⟩ := List.forall_mem_append.mp hvalues
    have hlinks' : (Value.objects (rs.map link)).height ≤ 15 :=
      Nat.le_trans (Nat.succ_le_succ hlinks) (by decide)
    refine Nat.succ_le_succ (Value.heightOfProperties_le_iff.mpr ?_)
    exact List.forall_mem_append.mpr ⟨hbefore, List.forall_mem_cons.mpr ⟨hlinks', hafter⟩⟩

theorem links_objects (rs : List Resource) : links (.objects (rs.map link)) = rs.map link := by
  have hnone (r : Resource) : (r.link.getObjects? "links").getD [r.link] = [r.link] := rfl
  simp only [links, roots, List.flatMap_map, hnone]
  exact List.flatMap_pure_eq_map link rs

theorem links_object {root : Representation} {ms : List Representation}
    (h : root.getObjects? "links" = some ms) : links (.object root) = ms := by
  simp [links, roots, h]

theorem links_normal (hrs : ∀ r ∈ rs, r.Reachable) (h : Advertises rs p) :
    p.normal.links = rs.map link := by
  have hlinks : ∀ m ∈ rs.map link, (Value.object m).Unambiguous :=
    List.forall_mem_map.mpr fun r hr => Resource.unambiguous_link (hrs r hr).endpoints_ne_nil
  cases h with
  | array =>
    have hnormal : (Payload.objects (rs.map link)).normal = .objects (rs.map link) :=
      Payload.Unambiguous.normal_eq hlinks
    rw [hnormal, links_objects]
  | @object before after hfirst hothers hheight =>
    refine links_object (Representation.getObjects?_of_normal ?_ hlinks)
    rw [Value.normalProperties_eq_map, List.map_append, List.map_cons]
    exact Representation.get?_append_cons (List.forall_mem_map.mpr hfirst)

theorem resources_normal (hrs : ∀ r ∈ rs, r.Reachable) (h : Advertises rs p) :
    p.normal.resources = rs.map Resource.named := by
  rw [resources, h.links_normal hrs, Resource.filterMap_link hrs]

theorem decode_encode (h : Advertises rs p) (hlength : p.encode.length < 2 ^ 64) :
    decode p.encode = .ok p.normal := by
  rw [Payload.decode_encode h.wellFormed.fault?_eq_none hlength, if_pos h.height_le]

end Advertises

/-- The resources of a device come through, but for bits of their masks that stand for nothing: they come
through as they are exactly when there are none. -/
theorem resources_roundTrip (rs : List Resource) (hrs : ∀ r ∈ rs, r.Reachable) (p : Payload)
    (hp : Advertises rs p) (capacity : UInt64) (held : List UInt8)
    (hfits : p.encode.length ≤ capacity.toNat) :
    Buffer.encodePayload ⟨capacity.toNat, held⟩ p =
        (⟨capacity.toNat, p.encode⟩, .ok p.encode.length) ∧
      ∃ q, decode p.encode = .ok q ∧ q.resources = rs.map Resource.named ∧
        (q.resources = rs ↔ ∀ r ∈ rs, r.interfaces.Named ∧ r.properties.Named) := by
  have hlength : p.encode.length < 2 ^ 64 := Nat.lt_of_le_of_lt hfits capacity.toNat_lt
  have hexact := Buffer.exact_encodePayload ⟨capacity.toNat, held⟩ hp.wellFormed.fault?_eq_none
  have hresources := hp.resources_normal hrs
  refine ⟨hexact.eq_taken hfits, p.normal, hp.decode_encode hlength, hresources, ?_⟩
  have hself : rs.map Resource.named = rs ↔ ∀ r ∈ rs, r.named = r := by
    simpa using List.map_inj_left (l := rs) (f := Resource.named) (g := id)
  rw [hresources, hself]
  exact forall₂_congr fun r _ => Resource.named_eq_iff

/-- A light with two endpoints, listed in the object of a discovery resource. -/
theorem resources_roundTrip_light :
    let light : Resource := {
      anchor := "ocf://2d2c8b3e-1f7a-4b0e-9c66-0123456789ab"
      uri := "/a/light"
      types := ["core.light"]
      interfaces := .ofList [.readWrite, .baseline]
      properties := .ofList [.discoverable, .observable]
      endpoints := [.ipv4 ⟨192, 168, 1, 7⟩ 5683 (Scheme.flags ⟨false, false⟩),
        .ipv6 ⟨[0xfe80, 0, 0, 0, 0, 0, 0, 1], rfl⟩ 5684 (Scheme.flags ⟨true, true⟩)] }
    let p : Payload := .object [("rt", .array [.text "oic.wk.res"]), ("links", .objects [light.link])]
    p.encode.length ≤ (1024 : UInt64).toNat ∧ ∃ q, decode p.encode = .ok q ∧ q.resources = [light] := by
  intro light p
  have hlight : ∀ r ∈ [light], r.Reachable := by
    refine List.forall_mem_singleton.mpr ⟨by decide, ?_⟩
    exact List.forall_mem_cons.mpr ⟨.ipv4 _ _ _, List.forall_mem_singleton.mpr (.ipv6 _ _ _)⟩
  have hnamed : ∀ r ∈ [light], r.interfaces.Named ∧ r.properties.Named :=
    List.forall_mem_singleton.mpr ⟨FlagSet.named_ofList _, FlagSet.named_ofList _⟩
  have hothers : (Value.object [("rt", .array [.text "oic.wk.res"])]).WellFormed :=
    Value.wellFormed_of_fault? rfl
  have hfirst : ∀ q ∈ [("rt", Value.array [.text "oic.wk.res"])], q.1 ≠ "links" := by decide
  have hp : Advertises [light] p := .object hfirst hothers (by decide)
  have hfits : p.encode.length ≤ (1024 : UInt64).toNat := by decide +kernel
  obtain ⟨-, q, hdecode, -, hiff⟩ := resources_roundTrip [light] hlight p hp 1024 [] hfits
  exact ⟨hfits, q, hdecode, hiff.mpr hnamed⟩

/-- A lamp with one bit in each mask, neither of which stands for anything: both are lost. -/
theorem resources_unnamed_bits :
    let lamp : Resource := {
      anchor := "ocf://x"
      uri := "/a/lamp"
      types := ["core.light"]
      interfaces := ⟨1⟩
      properties := ⟨4⟩
      endpoints := [.ipv4 ⟨192, 168, 1, 7⟩ 5683 (Scheme.flags ⟨false, false⟩)] }
    let p : Payload := .objects [lamp.link]
    lamp.Reachable ∧ Advertises [lamp] p ∧ p.encode.length ≤ (1024 : UInt64).toNat ∧
      ∃ q, decode p.encode = .ok q ∧
        q.resources = [{ lamp with interfaces := .empty, properties := .empty }] ∧
        q.resources ≠ [lamp] := by
  intro lamp p
  have hlamp : lamp.Reachable := ⟨by decide, List.forall_mem_singleton.mpr (.ipv4 _ _ _)⟩
  have hp : Advertises [lamp] p := .array
  have hfits : p.encode.length ≤ (1024 : UInt64).toNat := by decide +kernel
  have hnamed : lamp.named = { lamp with interfaces := .empty, properties := .empty } := by decide
  have hresources : p.normal.resources = [{ lamp with interfaces := .empty, properties := .empty }] := by
    rw [hp.resources_normal (List.forall_mem_singleton.mpr hlamp), List.map_singleton, hnamed]
  refine ⟨hlamp, hp, hfits, p.normal, hp.decode_encode (Nat.lt_of_le_of_lt hfits (by decide)),
    hresources, ?_⟩
  rw [hresources]
  decide

end Payload

end DeviceClient
