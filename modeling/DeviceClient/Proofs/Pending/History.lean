import Mathlib.Data.List.Induction
import Mathlib.Data.Set.Card
import DeviceClient.Proofs.Pending
import DeviceClient.Proofs.Since

namespace DeviceClient

/-- The operation has its last response with this one, given the sequence number of the response. -/
def Operation.EndedBy (sequence : Option UInt32) : Operation → Prop
  | discovery => False
  | observe => sequence = none
  | chainStep _ _ => True

theorem Operation.endedBy_iff {operation : Operation} {sequence : Option UInt32} :
    operation.EndedBy sequence ↔ operation.continues sequence = false := by
  cases operation <;> simp [EndedBy, continues]

theorem Token.bytes_inj {s t : Token} (h : s.bytes = t.bytes) : s = t := by
  have hnumber := congrArg BigEndian.decode h
  rw [bytes, bytes, BigEndian.decode_encode s.number.toNat_lt,
    BigEndian.decode_encode t.number.toNat_lt] at hnumber
  cases s
  cases t
  cases UInt64.toNat.inj hnumber
  rfl

namespace PendingRequests

inductive Call where
  | register (operation : Operation)
  /-- A response comes in. -/
  | correlate (token : Token) (sequence : Option UInt32)
  | remove (token : Token)
  | clear

def Call.isRegister : Call → Bool
  | register _ => true
  | _ => false

/-- A call together with its answer. -/
inductive Exchange where
  | register (operation : Operation) (token : Token)
  | correlate (token : Token) (sequence : Option UInt32) (operation : Option Operation)
  | remove (token : Token) (operation : Option Operation)
  | clear (count : Nat)

namespace Exchange

def call : Exchange → Call
  | register operation _ => .register operation
  | correlate token sequence _ => .correlate token sequence
  | remove token _ => .remove token
  | clear _ => .clear

/-- The token that is issued. -/
def token? : Exchange → Option Token
  | register _ token => some token
  | _ => none

/-- The operation that pends under the token does so no longer: it has its last response, or it is
removed, alone or with all others. -/
def Ends (token : Token) (operation : Operation) : Exchange → Prop
  | register _ _ => False
  | correlate other sequence _ => other = token ∧ operation.EndedBy sequence
  | remove other _ => other = token
  | clear _ => True

end Exchange

/-- The tokens that have been issued. -/
def tokens (history : List Exchange) : List Token := history.filterMap Exchange.token?

def perform (p : PendingRequests) : Call → Exchange × PendingRequests
  | .register operation => (.register operation (p.register operation).1, (p.register operation).2)
  | .correlate token sequence =>
    (.correlate token sequence (p.correlate token sequence).1, (p.correlate token sequence).2)
  | .remove token => (.remove token (p.find? token), p.remove token)
  | .clear => (.clear p.size, p.clear)

/-- Makes some calls to an empty table: their history, and the table after them. -/
def run (calls : List Call) : List Exchange × PendingRequests :=
  calls.foldl (fun done call =>
    (done.1 ++ [(done.2.perform call).1], (done.2.perform call).2)) ([], empty)

@[simp] theorem run_nil : run [] = ([], empty) := rfl

@[simp] theorem run_concat (calls : List Call) (call : Call) :
    run (calls ++ [call]) = ((run calls).1 ++ [((run calls).2.perform call).1],
      ((run calls).2.perform call).2) := by
  simp [run]

theorem call_perform (p : PendingRequests) (call : Call) : (p.perform call).1.call = call := by
  cases call <;> rfl

@[simp] theorem tokens_concat (history : List Exchange) (exchange : Exchange) :
    tokens (history ++ [exchange]) = tokens history ++ exchange.token?.toList := by
  cases htoken : exchange.token? <;> simp [tokens, htoken]

/-- The operation has been registered under the token, and nothing has ended it since. -/
def Pends (history : List Exchange) (token : Token) (operation : Operation) : Prop :=
  Since (· = .register operation token) (·.Ends token operation) history

/-- How many operations pend. -/
noncomputable def pendingCount (history : List Exchange) : ℕ∞ :=
  {token | ∃ operation, Pends history token operation}.encard

/-- The answers that a history gives. A token is new, and the bytes of it count the tokens from one
on; a response and a removal find the operation that pends under the token. -/
def Answers (history : List Exchange) : Exchange → Prop
  | .register _ token => token ∉ tokens history ∧
      token.bytes = BigEndian.encode 8 ((tokens history).length + 1)
  | .correlate token _ operation? | .remove token operation? =>
    ∀ operation, operation? = some operation ↔ Pends history token operation
  | .clear count => pendingCount history = count

/-- A response takes away the operation that it ends, and no other one. -/
theorem find?_correlate_eq_some_iff {p : PendingRequests} {token other : Token}
    {sequence : Option UInt32} {operation : Operation} :
    (p.correlate token sequence).2.find? other = some operation ↔
      p.find? other = some operation ∧ ¬(token = other ∧ operation.EndedBy sequence) := by
  cases hfind : p.find? token with
  | none =>
    rw [correlate_of_none hfind]
    refine (and_iff_left_of_imp fun hother => ?_).symm
    rintro ⟨rfl, -⟩
    rw [hfind] at hother
    cases hother
  | some found =>
    rw [correlate_of_some hfind]
    by_cases heq : token = other
    · subst heq
      rw [hfind, Operation.endedBy_iff]
      cases hcontinues : found.continues sequence with
      | true => grind
      | false => grind [find?_remove]
    · grind [find?_remove]

/-- The table holds what pends after the history, and the tokens have been issued in turn. -/
structure Tracks (p : PendingRequests) (history : List Exchange) : Prop where
  issued : p.Issued (tokens history).length
  find?_iff : ∀ token operation, p.find? token = some operation ↔ Pends history token operation
  numbers : (tokens history).map (·.number.toNat) = List.range' 1 (tokens history).length

theorem tracks_empty : empty.Tracks [] where
  issued := ⟨rfl, List.nodup_nil, nofun⟩
  find?_iff token operation := by simp [Pends, not_since_nil]
  numbers := rfl

namespace Tracks

variable {p : PendingRequests} {history : List Exchange} (h : p.Tracks history)

include h

theorem nodup_tokens : (tokens history).Nodup := by
  refine List.Nodup.of_map (·.number.toNat) ?_
  rw [h.numbers]
  exact List.nodup_range'

theorem number_le {token : Token} (htoken : token ∈ tokens history) :
    token.number.toNat ≤ (tokens history).length := by
  have hnumber := List.mem_map_of_mem (f := (·.number.toNat)) htoken
  rw [h.numbers, List.mem_range'_1] at hnumber
  omega

theorem nextToken_not_mem (hfew : (tokens history).length + 1 < 2 ^ 64) :
    p.nextToken ∉ tokens history := by
  intro htoken
  have hle := h.number_le htoken
  rw [h.issued.toNat_nextToken hfew] at hle
  omega

theorem count_eq : pendingCount history = p.size := by
  have hset : {token | ∃ operation, Pends history token operation} = (p.keys.toFinset : Set Token) := by
    ext token
    simp only [List.coe_toFinset, Set.mem_ofPred_eq, mem_keys_iff, h.find?_iff]
  rw [pendingCount, hset, Set.encard_coe_eq_coe_finsetCard, List.toFinset_card_of_nodup h.issued.keys,
    keys, List.length_map, size]

/-- What is found under a token is what pends under it. -/
theorem fst_correlate_iff (token : Token) (sequence : Option UInt32) (operation : Operation) :
    (p.correlate token sequence).1 = some operation ↔ Pends history token operation := by
  rw [← h.find?_iff]
  cases hfind : p.find? token with
  | none => simp [correlate_of_none hfind]
  | some found => simp [correlate_of_some hfind]

theorem answers (call : Call)
    (hfew : (tokens history).length + (if call.isRegister then 1 else 0) < 2 ^ 64) :
    Answers history (p.perform call).1 := by
  cases call with
  | register operation =>
    refine ⟨h.nextToken_not_mem hfew, ?_⟩
    exact congrArg (BigEndian.encode 8) (h.issued.toNat_nextToken hfew)
  | correlate token sequence => exact h.fst_correlate_iff token sequence
  | remove token => exact h.find?_iff token
  | clear => exact h.count_eq

/-- A call that issues no token keeps the table in step when it takes away what it ends. -/
theorem keeps {q : PendingRequests} {exchange : Exchange} (hissued : q.Issued (tokens history).length)
    (htoken : exchange.token? = none)
    (hfind : ∀ token operation, q.find? token = some operation ↔
      p.find? token = some operation ∧ ¬exchange.Ends token operation) :
    q.Tracks (history ++ [exchange]) := by
  have htokens : tokens (history ++ [exchange]) = tokens history := by simp [htoken]
  refine ⟨by rwa [htokens], fun token operation => ?_, by rw [htokens, h.numbers]⟩
  have hold : exchange ≠ .register operation token := by
    rintro rfl
    cases htoken
  rw [hfind, h.find?_iff, Pends, Pends, since_concat, or_iff_right hold]

theorem register (operation : Operation) (hfew : (tokens history).length + 1 < 2 ^ 64) :
    (p.register operation).2.Tracks (history ++ [.register operation p.nextToken]) := by
  have htokens : tokens (history ++ [.register operation p.nextToken]) =
      tokens history ++ [p.nextToken] := tokens_concat history _
  refine ⟨?_, fun token found => ?_, ?_⟩
  · rw [htokens, List.length_append, List.length_singleton]
    exact h.issued.register operation hfew
  · rw [Pends, since_concat, ← Pends, ← h.find?_iff, find?_register]
    by_cases hnew : token = p.nextToken
    · -- Nothing has pended under the new token.
      subst hnew
      simp [h.issued.find?_nextToken hfew]
    · simp [hnew, Ne.symm hnew, Exchange.Ends]
  · rw [htokens, List.map_append, h.numbers, List.length_append, List.length_singleton,
      List.range'_concat, List.map_singleton, h.issued.toNat_nextToken hfew]
    simp [Nat.add_comm]

theorem step (call : Call)
    (hfew : (tokens history).length + (if call.isRegister then 1 else 0) < 2 ^ 64) :
    (p.perform call).2.Tracks (history ++ [(p.perform call).1]) := by
  cases call with
  | register operation => exact h.register operation hfew
  | correlate token sequence =>
    exact h.keeps (h.issued.correlate token sequence) rfl fun _ _ => find?_correlate_eq_some_iff
  | remove token =>
    refine h.keeps (h.issued.remove token) rfl fun other operation => ?_
    change (p.remove token).find? other = some operation ↔ _ ∧ ¬token = other
    rw [find?_remove]
    by_cases heq : other = token
    · simp [heq]
    · simp [heq, Ne.symm heq]
  | clear =>
    refine h.keeps h.issued.clear rfl fun other operation => ?_
    simp [perform, clear, find?, Exchange.Ends]

end Tracks

theorem length_tokens (calls : List Call) :
    (tokens (run calls).1).length = calls.countP Call.isRegister := by
  induction calls using List.reverseRecOn with
  | nil => rfl
  | append_singleton calls call ih =>
    rw [run_concat, tokens_concat, List.length_append, ih, List.countP_append]
    cases call <;> rfl

section

variable {calls : List Call} (hfew : calls.countP Call.isRegister < 2 ^ 64)

include hfew

theorem tracks_run : (run calls).2.Tracks (run calls).1 := by
  induction calls using List.reverseRecOn with
  | nil => exact tracks_empty
  | append_singleton calls call ih =>
    rw [List.countP_append, List.countP_singleton] at hfew
    rw [run_concat]
    refine (ih (by omega)).step call ?_
    rwa [length_tokens]

theorem answers_run : (run calls).1.map Exchange.call = calls ∧
    ∀ before exchange, before ++ [exchange] <+: (run calls).1 → Answers before exchange := by
  -- From the end: each call is made to a table that holds what pends after the calls before it.
  induction calls using List.reverseRecOn with
  | nil =>
    refine ⟨rfl, fun before exchange hbefore => ?_⟩
    simp at hbefore
  | append_singleton calls call ih =>
    rw [List.countP_append, List.countP_singleton] at hfew
    obtain ⟨hcalls, hanswers⟩ := ih (by omega)
    rw [run_concat]
    refine ⟨?_, fun before exchange hbefore => ?_⟩
    · rw [List.map_append, hcalls, List.map_singleton, call_perform]
    · rcases List.prefix_concat_iff.mp hbefore with heq | hearlier
      · obtain ⟨rfl, hlast⟩ := List.append_inj' heq rfl
        obtain rfl := List.singleton_inj.mp hlast
        refine (tracks_run (by omega)).answers call ?_
        rwa [length_tokens]
      · exact hanswers before exchange hearlier

end

/-- The tokens that are issued are all different, and a registration takes the place of nothing. Each
call is answered by its history: what is found under a token is the operation that pends under it, for
each response up to the one that ends it, and not after the operation has ended. A response under
another token changes nothing. -/
theorem pending_until_ended {calls : List Call} (hfew : calls.countP Call.isRegister < 2 ^ 64) :
    ((run calls).1.map Exchange.call = calls ∧
      ∀ before exchange, before ++ [exchange] <+: (run calls).1 → Answers before exchange) ∧
    ((tokens (run calls).1).map Token.bytes).Nodup ∧
    (∀ token operation, (run calls).2.find? token = some operation ↔
      Pends (run calls).1 token operation) ∧
    (∀ earlier operation, earlier ++ [.register operation] <+: calls →
      ∀ token other, (run earlier).2.find? token = some other →
        (run (earlier ++ [.register operation])).2.find? token = some other) ∧
    ∀ token sequence, (∀ operation, ¬Pends (run calls).1 token operation) →
      (run calls).2.correlate token sequence = (none, (run calls).2) := by
  have htracks := tracks_run hfew
  refine ⟨answers_run hfew, ?_, htracks.find?_iff, ?_, fun token sequence hnone => ?_⟩
  · exact htracks.nodup_tokens.map fun _ _ => Token.bytes_inj
  · rintro earlier operation ⟨later, rfl⟩ token other hfound
    have hone : earlier.countP Call.isRegister + 1 < 2 ^ 64 := by
      rw [List.countP_append, List.countP_append] at hfew
      change _ + 1 + _ < 2 ^ 64 at hfew
      omega
    have hearlier : (run earlier).2.Tracks (run earlier).1 := tracks_run (by omega)
    have hnone := hearlier.issued.find?_nextToken (by rwa [length_tokens])
    have hne : token ≠ (run earlier).2.nextToken := by
      rintro rfl
      rw [hnone] at hfound
      cases hfound
    rw [run_concat]
    change ((run earlier).2.register operation).2.find? token = some other
    rw [find?_register, if_neg hne, hfound]
  · refine correlate_of_none (Option.eq_none_iff_forall_ne_some.mpr fun operation hfound => ?_) sequence
    exact hnone operation ((htracks.find?_iff token operation).mp hfound)

/-- A search, an observation and a read; the read is answered twice, the observation goes on, and the
search is removed. -/
theorem pending_until_ended_lamp :
    let calls : List Call := [.register .discovery, .register .observe,
      .register (.chainStep .get 0), .correlate ⟨3⟩ none, .correlate ⟨2⟩ (some 0),
      .correlate ⟨1⟩ none, .remove ⟨1⟩, .correlate ⟨3⟩ (some 1)]
    calls.countP Call.isRegister < 2 ^ 64 ∧ Pends (run calls).1 ⟨2⟩ .observe ∧
      (∀ operation, ¬Pends (run calls).1 ⟨3⟩ operation) ∧
      (run calls).2.correlate ⟨3⟩ none = (none, (run calls).2) := by
  intro calls
  have hfew : calls.countP Call.isRegister < 2 ^ 64 := by decide
  obtain ⟨-, -, hfind, -, hother⟩ := pending_until_ended hfew
  have hread : ∀ operation, ¬Pends (run calls).1 ⟨3⟩ operation := by
    intro operation hpends
    have hnone : (run calls).2.find? ⟨3⟩ = none := by decide
    rw [(hfind ⟨3⟩ operation).mpr hpends] at hnone
    cases hnone
  exact ⟨hfew, (hfind ⟨2⟩ .observe).mp (by decide), hread, hother ⟨3⟩ none hread⟩

end PendingRequests

end DeviceClient
