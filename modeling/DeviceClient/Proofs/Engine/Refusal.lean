import DeviceClient.Proofs.Engine.Bookkeeping

namespace DeviceClient

/-- The event that an effect reports. -/
def Effect.event? : Effect → Option ClientEvent
  | reported event => some event
  | _ => none

namespace PendingRequests

theorem entries_remove_eq_iff (p : PendingRequests) (token : Token) :
    (p.remove token).entries = p.entries ↔ p.find? token = none := by
  have hkeys : p.find? token = none ↔ token ∉ p.keys := by
    rw [mem_keys_iff, ← Option.isSome_iff_exists, Option.not_isSome_iff_eq_none]
  rw [hkeys, remove, List.filter_eq_self, keys, List.mem_map, not_exists]
  simp only [bne_iff_ne, not_and']
  exact forall_congr' fun entry => imp_not_comm

/-- A token that is taken back leaves the table as it was, unless something else was pending under
it. -/
theorem entries_remove_register_eq_iff (p : PendingRequests) (operation : Operation) :
    ((p.register operation).2.remove p.nextToken).entries = p.entries ↔
      p.find? p.nextToken = none := by
  rw [← entries_remove_eq_iff]
  simp [register, remove, nextToken, List.filter_filter]

end PendingRequests

namespace Engine

/-- The events that have been reported. -/
def events (e : Engine) : List ClientEvent := e.log.filterMap Effect.event?

@[simp] theorem events_recordAll (e : Engine) (effects : List Effect) :
    (e.recordAll effects).events = e.events ++ effects.filterMap Effect.event? := by
  simp [events]

/-- Nothing but the number of the last token and the log of requests and calls has changed. -/
structure Untouched (e e' : Engine) : Prop where
  discovery : e'.discovery = e.discovery
  chain : e'.chain = e.chain
  pending : e'.pending.entries = e.pending.entries
  timers : e'.timers = e.timers
  registry : e'.registry = e.registry
  events : e'.events = e.events

variable {e : Engine} {s : Surroundings} {error : ClientError}

/-- A search that is refused has put an end to the search before it. -/
theorem discover_of_refused {type : String} (h : (e.discover s type).2 = .error error) :
    (e.discover s type).1 =
      { e with
        discovery := none
        pending := ((e.pending.removeAll e.searchTokens).register .discovery).2.remove
          e.pending.nextToken }.recordAll
        [.sent (.discovery e.pending.nextToken (some type)) false] := by
  simp only [discover, request_eq, forgetDiscovery_eq, PendingRequests.nextToken_removeAll] at h ⊢
  cases hsend : s.send (.discovery e.pending.nextToken (some type)) with
  | none => simp [hsend] at h
  | some refusal => simp

theorem untouched_of_deviceCommand (command : DeviceCommand) :
    Untouched e (e.handleDeviceCommand s command).1 := by
  unfold handleDeviceCommand
  cases e.registry.callFor command with
  | error error => exact ⟨rfl, rfl, rfl, rfl, rfl, rfl⟩
  | ok call => exact ⟨rfl, rfl, rfl, rfl, rfl, by simp [record_eq, Effect.event?]⟩

theorem untouched_discover_iff {type : String} (h : (e.discover s type).2 = .error error) :
    Untouched e (e.discover s type).1 ↔
      e.discovery = none ∧ e.pending.find? e.pending.nextToken = none := by
  rw [discover_of_refused h]
  constructor
  · intro huntouched
    have hnone : e.discovery = none := huntouched.discovery.symm
    have hentries := huntouched.pending
    simp only [searchTokens, hnone, Option.map_none, Option.toList_none,
      PendingRequests.removeAll_nil, pending_recordAll] at hentries
    exact ⟨hnone, (e.pending.entries_remove_register_eq_iff _).mp hentries⟩
  · intro hfree
    obtain ⟨hnone, hfind⟩ := hfree
    have hentries := (e.pending.entries_remove_register_eq_iff .discovery).mpr hfind
    exact ⟨hnone.symm, rfl, by simpa [searchTokens, hnone] using hentries, rfl, rfl,
      by simp [events, Effect.event?]⟩

/-- What a search that is refused leaves of the engine. -/
theorem kept_of_refused {type : String} (h : (e.discover s type).2 = .error error) :
    (e.discover s type).1.chain = e.chain ∧ (e.discover s type).1.timers = e.timers ∧
      (e.discover s type).1.registry = e.registry ∧ (e.discover s type).1.events = e.events ∧
      (e.discover s type).1.discovery = none ∧
      ∀ d, e.discovery = some d → (e.discover s type).1.pending.find? d.token = none := by
  rw [discover_of_refused h]
  refine ⟨rfl, rfl, rfl, by simp [events, Effect.event?], rfl, fun d hd => ?_⟩
  have hgone : (e.pending.removeAll e.searchTokens).find? d.token = none := by
    rw [PendingRequests.find?_removeAll, if_pos (mem_searchTokens_iff.mpr ⟨d, hd, rfl⟩)]
  have hnext := PendingRequests.nextToken_removeAll e.pending e.searchTokens
  simp only [pending_recordAll, PendingRequests.find?_remove, PendingRequests.find?_register, hnext,
    hgone]
  split_ifs <;> rfl

/-- After a command that is refused, nothing has changed about the chain, the timers and the
registry, and nothing is reported. The search and the pending requests are as before too, with one
exception: a search that the network refuses ends the search under way, whose responses are dropped
from then on. (Its token would displace another one only after 2 ^ 64 others.) -/
theorem refused_untouched_iff (config : Config) (steps : List Step) (s : Surroundings)
    (command : Command) (error : ClientError)
    (h : ((run config steps).handleCommand s command).2 = .error error) :
    let e := run config steps
    let e' := run config (steps ++ [(s, .command command)])
    (e'.chain = e.chain ∧ e'.timers = e.timers ∧ e'.registry = e.registry ∧
      e'.events = e.events) ∧
    (Untouched e e' ↔ ∀ type, command = .discoverResource type →
      e.discovery = none ∧ e.pending.find? e.pending.nextToken = none) ∧
    (e.registrations + 1 < 2 ^ 64 →
      (Untouched e e' ↔ ∀ type, command = .discoverResource type → e.discovery = none)) ∧
    ∀ type d, command = .discoverResource type → e.discovery = some d →
      e'.discovery = none ∧ e'.pending.find? d.token = none := by
  intro e e'
  have hrun : e' = (e.handleCommand s command).1 := run_concat config steps (s, .command command)
  rw [hrun]
  change (e.handleCommand s command).2 = .error error at h
  cases command with
  | discoverResource type =>
    obtain ⟨hchain, htimers, hregistry, hevents, hdiscovery, hpending⟩ := kept_of_refused h
    have hiff := untouched_discover_iff h
    refine ⟨⟨hchain, htimers, hregistry, hevents⟩, ?_, fun hbound => ?_, ?_⟩
    · simpa [handleCommand] using hiff
    · have hfree : e.pending.find? e.pending.nextToken = none :=
        (bookkeeping_run (Nat.lt_of_succ_lt hbound)).issued.find?_nextToken hbound
      simpa [handleCommand, hfree] using hiff
    · rintro type' d - hd
      exact ⟨hdiscovery, hpending d hd⟩
  | stopObservation => cases h
  | device command =>
    have huntouched : Untouched e (e.handleDeviceCommand s command).1 :=
      untouched_of_deviceCommand command
    have hother (type : String) : Command.device command ≠ .discoverResource type := by
      intro heq
      cases heq
    refine ⟨⟨huntouched.chain, huntouched.timers, huntouched.registry, huntouched.events⟩, ?_,
      fun _ => ?_, fun type d heq => absurd heq (hother type)⟩
    · exact ⟨fun _ type heq => absurd heq (hother type), fun _ => huntouched⟩
    · exact ⟨fun _ type heq => absurd heq (hother type), fun _ => huntouched⟩

/-- A network that is down. -/
def down : Surroundings := ⟨fun _ => some (.reported .transport "down"), fun _ => none⟩

set_option maxRecDepth 10000 in
/-- Another search is refused while the lamp is observed, which goes on. -/
theorem refused_untouched_iff_lamp :
    ((run (Lamp.config 16) Lamp.observed).handleCommand down (.discoverResource "u")).2 =
        .error (.reported .transport "down") ∧
      Untouched (run (Lamp.config 16) Lamp.observed)
        (run (Lamp.config 16) (Lamp.observed ++ [(down, .command (.discoverResource "u"))])) := by
  have h : ((run (Lamp.config 16) Lamp.observed).handleCommand down (.discoverResource "u")).2 =
      .error (.reported .transport "down") := by
    rfl
  have hbound : (run (Lamp.config 16) Lamp.observed).registrations + 1 < 2 ^ 64 := by
    decide +kernel
  refine ⟨h, ((refused_untouched_iff _ _ _ _ _ h).2.2.1 hbound).mpr fun _ _ => ?_⟩
  rw [← Option.isNone_iff_eq_none]
  decide +kernel

/-- Another search is refused while the search for the lamp is under way. It ends that search, which
then misses the lamp. -/
theorem not_untouched_lamp :
    ((run (Lamp.config 16) (Lamp.found.take 1)).handleCommand down (.discoverResource "u")).2 =
        .error (.reported .transport "down") ∧
      ¬Untouched (run (Lamp.config 16) (Lamp.found.take 1))
        (run (Lamp.config 16) (Lamp.found.take 1 ++ [(down, .command (.discoverResource "u"))])) := by
  refine ⟨by rfl, fun huntouched => ?_⟩
  have hsearch := congrArg Option.isSome huntouched.discovery
  exact absurd hsearch (by decide +kernel)

end Engine

end DeviceClient
