import Mathlib.Data.List.Sort
import Mathlib.Tactic.SplitIfs
import DeviceClient.Registry

namespace DeviceClient

namespace Ordered

/-- Increasing lists are equal when they have the same elements. -/
theorem eq_of_mem_iff {α : Type} {key : α → Nat} {l l' : List α}
    (h : l.Pairwise fun a b => key a < key b) (h' : l'.Pairwise fun a b => key a < key b)
    (hmem : ∀ a, a ∈ l ↔ a ∈ l') : l = l' := by
  have : Std.Irrefl fun a b => key a < key b := ⟨fun a => Nat.lt_irrefl (key a)⟩
  have : Std.Antisymm fun a b => key a < key b :=
    ⟨fun a b hab hba => absurd hba (Nat.lt_asymm hab)⟩
  exact h.eq_of_mem_iff h' hmem

end Ordered

namespace DeviceId

theorem number_inj {a b : DeviceId} : a.number = b.number ↔ a = b :=
  ⟨eq_of_number_eq, congrArg number⟩

theorem foldl_lt (ds : List Nibble) (n : Nat) :
    ds.foldl (fun n d => 16 * n + d.val) n < (n + 1) * 16 ^ ds.length := by
  induction ds generalizing n with
  | nil => simp
  | cons d ds ih =>
    have hd := d.isLt
    calc (d :: ds).foldl (fun n d => 16 * n + d.val) n
        = ds.foldl (fun n d => 16 * n + d.val) (16 * n + d.val) := rfl
      _ < (16 * n + d.val + 1) * 16 ^ ds.length := ih _
      _ ≤ ((n + 1) * 16) * 16 ^ ds.length := Nat.mul_le_mul_right _ (by omega)
      _ = (n + 1) * 16 ^ (d :: ds).length := by rw [List.length_cons, Nat.pow_succ]; ac_rfl

theorem number_lt (id : DeviceId) : id.number < 16 ^ 32 := by
  have hlt := foldl_lt id.digits 0
  rwa [id.length_digits, Nat.zero_add, Nat.one_mul] at hlt

end DeviceId

namespace Registry

theorem find?_eq (r : Registry) (d : DeviceId) :
    r.find? d = r.entries.find? (entryKey · == d.number) := by
  have heq : (fun e : RegistryEntry => e.device == d) = (entryKey · == d.number) := by
    funext e
    rw [Bool.eq_iff_iff, beq_iff_eq, beq_iff_eq, entryKey, DeviceId.number_inj]
  rw [find?, heq]

theorem device_of_find? {r : Registry} {d : DeviceId} {e : RegistryEntry}
    (h : r.find? d = some e) : e.device = d := by
  simpa using List.find?_some h

@[simp] theorem find?_empty (d : DeviceId) : empty.find? d = none := rfl

section

variable (r : Registry) (d : DeviceId)

theorem find?_put (e : RegistryEntry) :
    (r.put e).find? d = if d = e.device then some e else r.find? d := by
  simp only [find?_eq, put]
  split_ifs with hd
  · rw [hd]
    exact Ordered.find?_put_self entryKey e r.entries
  · have hne : d.number ≠ entryKey e := fun heq => hd (DeviceId.eq_of_number_eq heq)
    exact Ordered.find?_put_of_ne hne r.entries

@[simp] theorem find?_dropCredentials (other : DeviceId) :
    (r.dropCredentials other).find? d = r.find? d := rfl

@[simp] theorem find?_addCredentials (a b : DeviceId) :
    (r.addCredentials a b).find? d = r.find? d := rfl

theorem find?_remove (other : DeviceId) :
    (r.remove other).find? d = if d = other then none else r.find? d := by
  simp only [find?, remove, List.find?_filter]
  split_ifs with hd
  · simp [hd]
  · have heq : (fun e : RegistryEntry => decide ((e.device != other) = true ∧
        (e.device == d) = true)) = (·.device == d) := by
      funext e
      by_cases he : e.device = d
      · simp [he, hd]
      · simp [he]
    rw [heq]

end

/-- The entries go up in their identities, so each device has one at most. -/
def Sorted (r : Registry) : Prop := r.entries.Pairwise fun a b => entryKey a < entryKey b

theorem sorted_empty : empty.Sorted := List.Pairwise.nil

theorem Sorted.put {r : Registry} (h : r.Sorted) (e : RegistryEntry) : (r.put e).Sorted :=
  Ordered.pairwise_put e h

theorem Sorted.remove {r : Registry} (h : r.Sorted) (d : DeviceId) : (r.remove d).Sorted :=
  h.filter _

theorem mem_entries_iff {r : Registry} (h : r.Sorted) {e : RegistryEntry} :
    e ∈ r.entries ↔ r.find? e.device = some e := by
  rw [find?_eq]
  exact Ordered.mem_iff_find? h

theorem pairKey_inj {p q : DeviceId × DeviceId} (h : pairKey p = pairKey q) : p = q := by
  have hp := p.2.number_lt
  have hq := q.2.number_lt
  simp only [pairKey] at h
  exact Prod.ext (DeviceId.eq_of_number_eq (by omega)) (DeviceId.eq_of_number_eq (by omega))

theorem mem_peers_iff {r : Registry} {a b : DeviceId} :
    b ∈ r.peers a ↔ (a, b) ∈ r.credentials ∨ (b, a) ∈ r.credentials := by
  rw [peers, List.mem_filterMap]
  constructor
  · rintro ⟨⟨first, second⟩, hmem, hpeer⟩
    dsimp only at hpeer
    split_ifs at hpeer with hfirst hsecond
    · cases hpeer
      exact .inl (hfirst ▸ hmem)
    · cases hpeer
      exact .inr (hsecond ▸ hmem)
  · rintro (hmem | hmem)
    · exact ⟨(a, b), hmem, by simp⟩
    · refine ⟨(b, a), hmem, ?_⟩
      by_cases hba : b = a <;> simp [hba]

@[simp] theorem peers_empty (d : DeviceId) : empty.peers d = [] := rfl

@[simp] theorem credentials_put (r : Registry) (e : RegistryEntry) :
    (r.put e).credentials = r.credentials := rfl

theorem mem_credentials_dropCredentials {r : Registry} {d : DeviceId} {p : DeviceId × DeviceId} :
    p ∈ (r.dropCredentials d).credentials ↔ p ∈ r.credentials ∧ p.1 ≠ d ∧ p.2 ≠ d := by
  simp only [dropCredentials, List.mem_filter, Bool.and_eq_true, bne_iff_ne]

theorem credentials_remove (r : Registry) (d : DeviceId) :
    (r.remove d).credentials = (r.dropCredentials d).credentials := rfl

theorem mem_credentials_addCredentials {r : Registry} {a b : DeviceId} {p : DeviceId × DeviceId} :
    p ∈ (r.addCredentials a b).credentials ↔ p = pair a b ∨ p ∈ r.credentials := by
  rw [addCredentials, Ordered.mem_put_iff fun _ _ => pairKey_inj]

/-- A pair stands for its two devices in either order. -/
theorem pair_eq_iff {first second a b : DeviceId} :
    pair first second = (a, b) ∨ pair first second = (b, a) ↔
      first = a ∧ second = b ∨ first = b ∧ second = a := by
  unfold pair
  split_ifs
  · simp only [Prod.mk.injEq]
    grind
  · simp only [Prod.mk.injEq]

/-- Entries and pairs are in order. A registry in order is told by its entries and its pairs. -/
structure Canonical (r : Registry) : Prop where
  entries : r.Sorted
  credentials : r.credentials.Pairwise fun p q => pairKey p < pairKey q

theorem canonical_empty : empty.Canonical := ⟨sorted_empty, List.Pairwise.nil⟩

theorem Canonical.eq {r s : Registry} (hr : r.Canonical) (hs : s.Canonical)
    (hentries : ∀ d, r.find? d = s.find? d)
    (hcredentials : ∀ p, p ∈ r.credentials ↔ p ∈ s.credentials) : r = s := by
  have hmem : ∀ e, e ∈ r.entries ↔ e ∈ s.entries := by
    intro e
    rw [mem_entries_iff hr.entries, mem_entries_iff hs.entries, hentries]
  have hsame : r.entries = s.entries := Ordered.eq_of_mem_iff hr.entries hs.entries hmem
  have hpairs : r.credentials = s.credentials :=
    Ordered.eq_of_mem_iff hr.credentials hs.credentials hcredentials
  cases r
  cases s
  cases hsame
  cases hpairs
  rfl

end Registry

end DeviceClient
