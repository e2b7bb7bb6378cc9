import Mathlib.Data.List.Basic
import DeviceClient.Proofs.Endpoint.Uri
import DeviceClient.Proofs.FlagSet
import DeviceClient.Proofs.Value
import DeviceClient.Resource.Link

namespace DeviceClient

namespace Interfaces

theorem ofProtocolName?_protocolName (i : Interface) :
    Interface.ofProtocolName? i.protocolName = some i := by
  cases i <;> rfl

/-- Interfaces are read back from their names, and bits of no interface have none. -/
theorem ofProtocolNames_protocolNames (s : Interfaces) :
    ofProtocolNames s.protocolNames = .truncate s.bits := by
  have hnames : s.protocolNames.filterMap Interface.ofProtocolName? = s.toList := by
    rw [protocolNames, List.filterMap_map]
    have hsome : Interface.ofProtocolName? ∘ Interface.protocolName = some :=
      funext ofProtocolName?_protocolName
    rw [hsome, List.filterMap_some]
  rw [ofProtocolNames, hnames, FlagSet.ofList_toList]

end Interfaces

namespace Resource

/-- The object that tells the properties of a resource. -/
def policy (r : Resource) : Representation := [("bm", .int (Int64.ofNat r.properties.bits.toNat))]

/-- The object that tells an endpoint. -/
def endpointItem (e : Endpoint) : Representation := [("ep", .text e.text)]

/-- The link of a resource. -/
def link (r : Resource) : Representation :=
  [("anchor", .text r.anchor),
    ("href", .text r.uri),
    ("rt", .array (r.types.map .text)),
    ("if", .array (r.interfaces.protocolNames.map .text)),
    ("p", .object r.policy),
    ("eps", .objects (r.endpoints.map endpointItem))]

/-- A resource that others can reach: it has endpoints, and its link tells all of them in full. -/
structure Reachable (r : Resource) : Prop where
  endpoints_ne_nil : r.endpoints ≠ []
  plain : ∀ e ∈ r.endpoints, e.Plain

/-- What the masks of a resource tell: the bits of no flag are left out. -/
def named (r : Resource) : Resource :=
  { r with interfaces := .truncate r.interfaces.bits, properties := .truncate r.properties.bits }

theorem named_eq_iff {r : Resource} : r.named = r ↔ r.interfaces.Named ∧ r.properties.Named := by
  cases r
  simp [named, FlagSet.Named]

theorem filterMap_texts (texts : List String) :
    ((texts.map Value.text).filterMap fun
      | .text s => some s
      | _ => none) = texts := by
  rw [List.filterMap_map]
  exact List.filterMap_some

theorem getTexts?_types (r : Resource) : r.link.getTexts? "rt" = some r.types :=
  congrArg some (filterMap_texts r.types)

theorem getTexts?_interfaces (r : Resource) :
    r.link.getTexts? "if" = some r.interfaces.protocolNames :=
  congrArg some (filterMap_texts r.interfaces.protocolNames)

theorem propertiesOfLink_link (r : Resource) :
    propertiesOfLink r.link = .truncate r.properties.bits := by
  have hlt : r.properties.bits.toNat < 256 := r.properties.bits.isLt
  have hint : (Int64.ofNat r.properties.bits.toNat).toInt = r.properties.bits.toNat :=
    Int64.toInt_ofNat_of_lt (by omega)
  have hbits : (r.link.getObject? "p").bind (·.getInt? "bm") =
      some (Int64.ofNat r.properties.bits.toNat) := rfl
  have hrange : 0 ≤ (r.properties.bits.toNat : Int) ∧ (r.properties.bits.toNat : Int) < 256 := by omega
  have hoctet : BitVec.ofNat 8 r.properties.bits.toNat = r.properties.bits :=
    BitVec.ofNat_toNat 8 r.properties.bits |>.trans (BitVec.setWidth_eq _)
  simp only [propertiesOfLink, hbits, hint, if_pos hrange, Int.toNat_natCast, hoctet]

theorem endpointsOfLink_link {r : Resource} (h : ∀ e ∈ r.endpoints, e.Plain) :
    endpointsOfLink r.link = r.endpoints := by
  have hitems : r.link.getObjects? "eps" = some (r.endpoints.map endpointItem) := rfl
  rw [endpointsOfLink, hitems, Option.getD_some, List.filterMap_map]
  refine (List.filterMap_congr fun e he => ?_).trans List.filterMap_some
  have htext : (endpointItem e).getText? "ep" = some e.text := rfl
  simp only [Function.comp_apply, htext, Option.bind_some, (h e he).parse_text]
  rfl

theorem ofLink?_link {r : Resource} (h : r.Reachable) : ofLink? r.link = some r.named := by
  have hempty : r.endpoints.isEmpty = false := by simpa using h.endpoints_ne_nil
  have huri : r.link.getText? "href" = some r.uri := rfl
  have hanchor : r.link.getText? "anchor" = some r.anchor := rfl
  simp [ofLink?, huri, hanchor, endpointsOfLink_link h.plain, hempty, getTexts?_types,
    getTexts?_interfaces, Interfaces.ofProtocolNames_protocolNames, propertiesOfLink_link, named]

theorem filterMap_link {rs : List Resource} (h : ∀ r ∈ rs, r.Reachable) :
    (rs.map link).filterMap ofLink? = rs.map named := by
  rw [List.filterMap_map, ← List.filterMap_eq_map]
  exact List.filterMap_congr fun r hr => ofLink?_link (h r hr)

theorem wellFormed_texts (texts : List String) : (Value.array (texts.map .text)).WellFormed := by
  refine .array ?_ ?_
  · exact List.forall_mem_map.mpr fun s _ => rfl
  · exact List.forall_mem_map.mpr fun s _ => .text s

theorem wellFormed_link (r : Resource) : (Value.object r.link).WellFormed := by
  have hitem (e : Endpoint) : (Value.object (endpointItem e)).WellFormed :=
    .object (by simp [endpointItem]) (by simp [endpointItem, Value.WellFormed.text])
  have hitems : (Value.objects (r.endpoints.map endpointItem)).WellFormed :=
    .objects <| List.forall_mem_map.mpr fun e _ => hitem e
  have hpolicy : (Value.object r.policy).WellFormed :=
    .object (by simp [policy]) (by simp [policy, Value.WellFormed.int])
  refine .object (by simp [link]) ?_
  simp [link, Value.WellFormed.text, wellFormed_texts, hpolicy, hitems]

theorem unambiguous_texts (texts : List String) :
    (Value.array (texts.map .text)).Unambiguous :=
  .array <| List.forall_mem_map.mpr fun s _ => .text s

theorem unambiguous_link {r : Resource} (h : r.endpoints ≠ []) :
    (Value.object r.link).Unambiguous := by
  have hitem (e : Endpoint) : (Value.object (endpointItem e)).Unambiguous :=
    .object (by simp [endpointItem, Value.Unambiguous.text])
  have hitems : (Value.objects (r.endpoints.map endpointItem)).Unambiguous :=
    .objects (by simpa using h) <| List.forall_mem_map.mpr fun e _ => hitem e
  have hpolicy : (Value.object r.policy).Unambiguous :=
    .object (by simp [policy, Value.Unambiguous.int])
  refine .object ?_
  simp [link, Value.Unambiguous.text, unambiguous_texts, hpolicy, hitems]

theorem height_link (r : Resource) : Value.heightOfProperties r.link ≤ 2 := by
  have htext (s : String) : (Value.text s).height ≤ 2 := Nat.zero_le 2
  have htexts (texts : List String) : (Value.array (texts.map .text)).height ≤ 2 :=
    Nat.succ_le_succ <| Value.heightOfValues_le_iff.mpr <| List.forall_mem_map.mpr fun _ _ =>
      Nat.zero_le 1
  have hitems : (Value.objects (r.endpoints.map endpointItem)).height ≤ 2 :=
    Nat.succ_le_succ <| Value.heightOfObjects_le_iff.mpr <| List.forall_mem_map.mpr fun _ _ =>
      Nat.le_refl 1
  have hpolicy : (Value.object r.policy).height ≤ 2 := Nat.le_succ 1
  refine Value.heightOfProperties_le_iff.mpr ?_
  simp [link, htext, htexts, hpolicy, hitems]

end Resource

end DeviceClient
