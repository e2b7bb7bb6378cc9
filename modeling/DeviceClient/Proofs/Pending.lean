import Mathlib.Tactic.SplitIfs
import DeviceClient.Pending

namespace DeviceClient.PendingRequests

/-- The token that the next operation is entered under. -/
def nextToken (p : PendingRequests) : Token := ⟨p.issued + 1⟩

/-- The tokens that something is pending under. -/
def keys (p : PendingRequests) : List Token := p.entries.map Prod.fst

@[simp] theorem find?_empty (token : Token) : empty.find? token = none := rfl

theorem find?_remove (p : PendingRequests) (token other : Token) :
    (p.remove token).find? other = if other = token then none else p.find? other := by
  obtain ⟨entries, issued⟩ := p
  simp only [find?, remove]
  induction entries with
  | nil => simp
  | cons entry entries ih =>
    obtain ⟨key, operation⟩ := entry
    simp only [List.filter_cons, List.lookup_cons]
    by_cases hd : other = key
    · by_cases hk : key = token
      · simpa [hd, hk] using ih
      · simp [hd, hk]
    · have hb : (other == key) = false := beq_eq_false_iff_ne.mpr hd
      rw [hb]
      by_cases hk : key = token
      · simpa [hk] using ih
      · simpa [hk, hb, List.lookup_cons] using ih

@[simp] theorem remove_remove (p : PendingRequests) (token : Token) :
    (p.remove token).remove token = p.remove token := by
  simp [remove, List.filter_filter]

@[simp] theorem issued_register (p : PendingRequests) (operation : Operation) :
    (p.register operation).2.issued = p.issued + 1 := rfl

theorem find?_register (p : PendingRequests) (operation : Operation) (other : Token) :
    (p.register operation).2.find? other =
      if other = p.nextToken then some operation else p.find? other := by
  by_cases ho : other = p.nextToken
  · simp [register, find?, nextToken, ho]
  · have hr := p.find?_remove p.nextToken other
    have hne : (other == p.nextToken) = false := by simpa using ho
    simp only [ho, if_false] at hr ⊢
    rw [← hr]
    simp only [register, find?, nextToken, List.lookup_cons] at hne ⊢
    rw [hne]

theorem correlate_of_none {p : PendingRequests} {token : Token} (h : p.find? token = none)
    (sequence : Option UInt32) : p.correlate token sequence = (none, p) := by
  simp [correlate, h]

theorem correlate_of_some {p : PendingRequests} {token : Token} {operation : Operation}
    (h : p.find? token = some operation) (sequence : Option UInt32) :
    p.correlate token sequence =
      (some operation, if operation.continues sequence then p else p.remove token) := by
  simp [correlate, h]

theorem keys_remove (p : PendingRequests) (token : Token) :
    (p.remove token).keys = p.keys.filter (· != token) := by
  simp [keys, remove, List.filter_map, Function.comp_def]

theorem mem_keys_iff {p : PendingRequests} {token : Token} :
    token ∈ p.keys ↔ ∃ operation, p.find? token = some operation := by
  obtain ⟨entries, issued⟩ := p
  simp only [keys, find?]
  induction entries with
  | nil => simp
  | cons entry entries ih =>
    obtain ⟨key, operation⟩ := entry
    by_cases heq : token = key
    · simp [heq]
    · have hb : (token == key) = false := beq_eq_false_iff_ne.mpr heq
      simp only [List.map_cons, List.mem_cons, heq, false_or, ih, List.lookup_cons, hb]

/-- So many tokens have been issued, and the pending ones are among them. -/
structure Issued (p : PendingRequests) (n : Nat) : Prop where
  last : p.issued = UInt64.ofNat n
  keys : p.keys.Nodup
  earlier : ∀ token operation, p.find? token = some operation → token.number.toNat ≤ n

namespace Issued

variable {p : PendingRequests} {n : Nat} (h : p.Issued n)

include h

theorem remove (token : Token) : (p.remove token).Issued n where
  last := h.last
  keys := by
    rw [keys_remove]
    exact h.keys.filter _
  earlier := by
    intro other operation hother
    rw [find?_remove] at hother
    split_ifs at hother
    exact h.earlier other operation hother

theorem correlate (token : Token) (sequence : Option UInt32) :
    (p.correlate token sequence).2.Issued n := by
  cases hfind : p.find? token with
  | none => rwa [correlate_of_none hfind]
  | some operation =>
    rw [correlate_of_some hfind]
    dsimp only
    split_ifs
    · exact h
    · exact h.remove token

theorem clear : p.clear.Issued n := ⟨h.last, List.nodup_nil, nofun⟩

/-- The numbers of the tokens go up, as long as they do not start again. -/
theorem toNat_nextToken (hn : n + 1 < 2 ^ 64) : p.nextToken.number.toNat = n + 1 := by
  have hlast : p.issued.toNat = n := by
    rw [h.last, UInt64.toNat_ofNat']
    omega
  simp only [nextToken, UInt64.toNat_add, UInt64.toNat_one, hlast]
  omega

theorem find?_nextToken (hn : n + 1 < 2 ^ 64) : p.find? p.nextToken = none := by
  cases hfind : p.find? p.nextToken with
  | none => rfl
  | some operation =>
    have hle := h.earlier _ _ hfind
    rw [h.toNat_nextToken hn] at hle
    omega

theorem register (operation : Operation) (hn : n + 1 < 2 ^ 64) :
    (p.register operation).2.Issued (n + 1) where
  last := by
    rw [issued_register, h.last]
    apply UInt64.toNat.inj
    simp [UInt64.toNat_add]
  keys := by
    have hkeys : (p.register operation).2.keys = p.nextToken :: (p.remove p.nextToken).keys := rfl
    rw [hkeys, keys_remove]
    exact List.nodup_cons.mpr ⟨by simp, h.keys.filter _⟩
  earlier := by
    intro other op hother
    rw [find?_register] at hother
    split_ifs at hother with heq
    · have hnumber := h.toNat_nextToken hn
      rw [heq]
      omega
    · have hle := h.earlier other op hother
      omega

/-- A fresh token that is taken back leaves every entry as it was. -/
theorem find?_remove_register (operation : Operation) (hn : n + 1 < 2 ^ 64) (other : Token) :
    ((p.register operation).2.remove p.nextToken).find? other = p.find? other := by
  rw [find?_remove, find?_register]
  split_ifs with heq
  · rw [heq, h.find?_nextToken hn]
  · rfl

end Issued

end DeviceClient.PendingRequests
