import DeviceClient.AccessEntry
import DeviceClient.Proofs.FlagSet
import DeviceClient.Proofs.Identity
import DeviceClient.Proofs.Payload.Agreement
import DeviceClient.Proofs.Payload.Embedding
import DeviceClient.Proofs.Payload.Injectivity

namespace DeviceClient

namespace Representation

/-- All properties are texts with names. -/
def OfTexts (r : Representation) : Prop := ∀ p ∈ r, p.1 ≠ "" ∧ ∃ s, p.2 = .text s

namespace OfTexts

variable {r : Representation} (h : r.OfTexts)

include h

/-- What holds of all texts holds of all values. -/
theorem forall_values {P : Value → Prop} (htext : ∀ s, P (.text s)) : ∀ p ∈ r, P p.2 := by
  intro p hp
  obtain ⟨-, s, hs⟩ := h p hp
  rw [hs]
  exact htext s

theorem wellFormed : (Value.object r).WellFormed :=
  .object (fun p hp => (h p hp).1) (h.forall_values .text)

theorem proper : (Value.object r).Proper := .object (h.forall_values .text)

theorem unambiguous : (Value.object r).Unambiguous := .object (h.forall_values .text)

theorem heightOfProperties_le : Value.heightOfProperties r ≤ 0 := by
  refine Value.heightOfProperties_le_iff.mpr ?_
  exact h.forall_values (P := fun v => v.height ≤ 0) fun _ => Nat.le_refl 0

end OfTexts

end Representation

theorem ConnectionType.name_inj {c d : ConnectionType} (h : c.name = d.name) : c = d := by
  cases c <;> cases d <;> first | rfl | exact absurd h (by decide)

namespace Target

theorem ofTexts_representation (t : Target) : t.representation.OfTexts := by
  cases t <;> simp [representation, Representation.OfTexts]

/-- A path is told from the wildcard of the same text by the name of its property. -/
theorem representation_inj {t u : Target} (h : t.representation = u.representation) : t = u := by
  cases t <;> cases u <;> simp_all [representation, text]

end Target

namespace AccessEntry

variable {a b : AccessEntry} {r s : Representation}

theorem exists_representSubject? (u : Subject) : ∃ r, representSubject? u = some r := by
  rcases u with id | ⟨role, _ | authority⟩ | type <;> exact ⟨_, rfl⟩

theorem ofTexts_of_representSubject? {u : Subject} (h : representSubject? u = some r) : r.OfTexts := by
  rcases u with id | ⟨role, _ | authority⟩ | type <;> cases h <;> simp [Representation.OfTexts]

/-- The names of the properties tell the kind of a subject, and whether a role has an authority. -/
theorem representSubject?_inj {u v : Subject} (hu : representSubject? u = some r)
    (hv : representSubject? v = some r) : u = v := by
  rcases u with id | ⟨role, _ | authority⟩ | type <;>
    rcases v with id' | ⟨role', _ | authority'⟩ | type' <;>
    cases hu <;> simp [representSubject?, Representation.insert?] at hv
  · rw [DeviceId.text_inj hv]
  · rw [hv]
  · rw [hv.1, hv.2]
  · rw [ConnectionType.name_inj hv]

/-- No property is without a name, so all of them are there. -/
theorem represent?_eq_some_iff : a.represent? = some r ↔
    ∃ u, representSubject? a.subject = some u ∧
      r = [("subject", .object u), ("resources", .objects (a.targets.map Target.representation)),
        ("permission", .int (Int64.ofNat a.permissions.bits.toNat))] := by
  obtain ⟨u, hu⟩ := exists_representSubject? a.subject
  have hrepresent : a.represent? = some
      [("subject", .object u), ("resources", .objects (a.targets.map Target.representation)),
        ("permission", .int (Int64.ofNat a.permissions.bits.toNat))] := by
    rw [represent?, hu]
    rfl
  rw [hrepresent, hu]
  simp [eq_comm]

theorem exists_represent? (a : AccessEntry) : ∃ r, a.represent? = some r := by
  obtain ⟨u, hu⟩ := exists_representSubject? a.subject
  exact ⟨_, represent?_eq_some_iff.mpr ⟨u, hu, rfl⟩⟩

/-- The resources are told by their normal form, in their order and each as often as it is listed. -/
theorem targets_inj {ts us : List Target}
    (h : (Value.objects (ts.map Target.representation)).normal =
      (Value.objects (us.map Target.representation)).normal) : ts = us := by
  have hunambiguous (ts : List Target) :
      ∀ r ∈ ts.map Target.representation, (Value.object r).Unambiguous :=
    List.forall_mem_map.mpr fun t _ => t.ofTexts_representation.unambiguous
  have hmap := Value.normal_objects_inj (hunambiguous ts) (hunambiguous us) h
  exact List.map_injective_iff.mpr (fun _ _ => Target.representation_inj) hmap

theorem bits_inj {m n : BitVec 8} (h : Int64.ofNat m.toNat = Int64.ofNat n.toNat) : m = n := by
  have htoInt (k : BitVec 8) : (Int64.ofNat k.toNat).toInt = k.toNat := by
    have hlt := k.isLt
    exact Int64.toInt_ofNat_of_lt (by omega)
  have hcast := congrArg Int64.toInt h
  rw [htoInt, htoInt] at hcast
  exact BitVec.eq_of_toNat_eq (Int.ofNat_inj.mp hcast)

section

variable (ha : a.represent? = some r)

include ha

theorem wellFormed : (Value.object r).WellFormed := by
  obtain ⟨u, hu, rfl⟩ := represent?_eq_some_iff.mp ha
  have hsubject := (ofTexts_of_representSubject? hu).wellFormed
  have htargets : (Value.objects (a.targets.map Target.representation)).WellFormed :=
    .objects <| List.forall_mem_map.mpr fun t _ => t.ofTexts_representation.wellFormed
  exact .object (by simp) (by simp [hsubject, htargets, Value.WellFormed.int])

theorem proper : (Value.object r).Proper := by
  obtain ⟨u, hu, rfl⟩ := represent?_eq_some_iff.mp ha
  have hsubject := (ofTexts_of_representSubject? hu).proper
  have htargets : (Value.objects (a.targets.map Target.representation)).Proper :=
    .objects <| List.forall_mem_map.mpr fun t _ => t.ofTexts_representation.proper
  exact .object (by simp [hsubject, htargets, Value.Proper.int])

theorem height_le : (Value.object r).height ≤ 3 := by
  obtain ⟨u, hu, rfl⟩ := represent?_eq_some_iff.mp ha
  have hsubject := (ofTexts_of_representSubject? hu).heightOfProperties_le
  have htargets : Value.heightOfObjects (a.targets.map Target.representation) ≤ 1 :=
    Value.heightOfObjects_le_iff.mpr <| List.forall_mem_map.mpr fun t _ =>
      Nat.succ_le_succ t.ofTexts_representation.heightOfProperties_le
  refine Nat.succ_le_succ (Value.heightOfProperties_le_iff.mpr ?_)
  simp [Value.height]
  omega

theorem decode_encode (hlength : r.encode.length < 2 ^ 64) :
    ∃ q, Payload.decode r.encode = .ok (.object q) ∧ q.agrees r = true := by
  have hfault : (Payload.object r).fault? = none := (wellFormed ha).fault?_eq_none
  have hheight : (Payload.object r).height ≤ Decoding.maxDepth := Nat.le_trans (height_le ha) (by decide)
  have hdecode := Payload.decode_encode hfault hlength
  rw [if_pos hheight] at hdecode
  refine ⟨Value.normalProperties r, hdecode, ?_⟩
  have hagrees := (Value.object r).agreesNormal
  rw [Value.AgreesNormal, (proper ha).isNumeric, Value.normal] at hagrees
  exact hagrees

variable (hb : b.represent? = some s)

include hb

theorem normalProperties_inj (h : Value.normalProperties r = Value.normalProperties s) : a = b := by
  obtain ⟨u, hu, rfl⟩ := represent?_eq_some_iff.mp ha
  obtain ⟨v, hv, rfl⟩ := represent?_eq_some_iff.mp hb
  have hnormal {w : Subject} {r : Representation} (hr : representSubject? w = some r) :
      (Value.object r).normal = .object r :=
    (ofTexts_of_representSubject? hr).unambiguous.normal_eq
  simp only [Value.normalProperties_eq_map, List.map_cons, List.map_nil, hnormal hu, hnormal hv,
    List.cons.injEq, Prod.mk.injEq, Value.object.injEq, true_and, and_true] at h
  obtain ⟨rfl, htargets, hbits⟩ := h
  exact AccessEntry.ext (representSubject?_inj hu hv) (targets_inj htargets)
    (FlagSet.ext (bits_inj (Value.int.inj hbits)))

theorem normal_eq_iff : (Value.object r).normal = (Value.object s).normal ↔ a = b := by
  constructor
  · exact fun h => normalProperties_inj ha hb (Value.object.inj h)
  · rintro rfl
    rw [Option.some.inj (ha.symm.trans hb)]

theorem agrees_iff : r.agrees s = true ↔ a = b :=
  (Value.agrees_iff_normal_eq (proper ha) (proper hb)).trans (normal_eq_iff ha hb)

theorem encode_eq_iff (hr : r.encode.length < 2 ^ 64) (hs : s.encode.length < 2 ^ 64) :
    r.encode = s.encode ↔ a = b :=
  (Value.encode_eq_iff (wellFormed ha).fault?_eq_none (wellFormed hb).fault?_eq_none hr hs).trans
    (normal_eq_iff ha hb)

end

/-- Every entry has a representation, even with permissions for which there is no flag; it is accepted
by a buffer that is large enough and read back equal. No two entries have equal representations, or
the same bytes in buffers that accept them. -/
theorem told_apart (a : AccessEntry) :
    ∃ r, a.represent? = some r ∧
      (∀ (capacity : UInt64) held, r.encode.length ≤ capacity.toNat →
        Buffer.encode ⟨capacity.toNat, held⟩ r =
            (⟨capacity.toNat, r.encode⟩, .ok r.encode.length) ∧
          ∃ q, Payload.decode r.encode = .ok (.object q) ∧ q.agrees r = true) ∧
      ∀ (b : AccessEntry) s, b.represent? = some s →
        (r.agrees s = true ↔ a = b) ∧
        ∀ (capacity capacity' : UInt64) held held' c c' n n',
          Buffer.encode ⟨capacity.toNat, held⟩ r = (c, .ok n) →
          Buffer.encode ⟨capacity'.toNat, held'⟩ s = (c', .ok n') →
          (c.content = c'.content ↔ a = b) := by
  obtain ⟨r, hr⟩ := a.exists_represent?
  refine ⟨r, hr, fun capacity held hfits => ⟨?_, ?_⟩, fun b s hs => ⟨agrees_iff hr hs, ?_⟩⟩
  · exact Buffer.encode_of_fits ⟨capacity.toNat, held⟩ (wellFormed hr).fault?_eq_none hfits
  · exact decode_encode hr (Nat.lt_of_le_of_lt hfits capacity.toNat_lt)
  · intro capacity capacity' held held' c c' n n' hc hc'
    obtain ⟨-, hbytes, hlength⟩ := Buffer.encodable_of_encode hc
    obtain ⟨-, hbytes', hlength'⟩ := Buffer.encodable_of_encode hc'
    rw [hbytes, hbytes']
    exact encode_eq_iff hr hs hlength hlength'

/-- Who has the role may update what is at one path, or else whatever can be discovered. The texts of
the two are the same. -/
theorem told_apart_plus :
    let path : AccessEntry := ⟨.role "admin" none, [.path "+"], .singleton .update⟩
    let wildcard : AccessEntry := ⟨.role "admin" none, [.discoverable], .singleton .update⟩
    ∃ r s, path.represent? = some r ∧ wildcard.represent? = some s ∧ r.agrees s = false ∧
      ∃ b b' : Buffer,
        Buffer.encode ⟨(56 : UInt64).toNat, []⟩ r = (b, .ok 56) ∧
        Buffer.encode ⟨(1024 : UInt64).toNat, [0]⟩ s = (b', .ok 54) ∧
        b.content ≠ b'.content ∧
        ∃ q, Payload.decode b.content = .ok (.object q) ∧ q.agrees r = true := by
  intro path wildcard
  have hne : path ≠ wildcard := by decide
  obtain ⟨r, hr, hfits, hother⟩ := told_apart path
  obtain ⟨s, hs, hfits', -⟩ := told_apart wildcard
  obtain ⟨hagrees, hbytes⟩ := hother wildcard s hs
  have hlength : r.encode.length = 56 := by
    cases hr
    decide +kernel
  have hlength' : s.encode.length = 54 := by
    cases hs
    decide +kernel
  obtain ⟨hpath, hdecode⟩ := hfits 56 [] (by rw [hlength]; decide)
  obtain ⟨hwildcard, -⟩ := hfits' 1024 [0] (by rw [hlength']; decide)
  rw [hlength] at hpath
  rw [hlength'] at hwildcard
  exact ⟨r, s, hr, hs, Bool.eq_false_iff.mpr fun h => hne (hagrees.mp h), _, _, hpath, hwildcard,
    fun h => hne ((hbytes _ _ _ _ _ _ _ _ hpath hwildcard).mp h), hdecode⟩

end AccessEntry

end DeviceClient
