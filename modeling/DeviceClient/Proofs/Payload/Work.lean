import DeviceClient.Proofs.Payload.Canonical
import DeviceClient.Proofs.Payload.Delimiting
import DeviceClient.Proofs.Payload.Trace

namespace DeviceClient

namespace Decoding

open Reading (fail log)

variable {α β : Type}

namespace Step

def isBegun : Step → Bool
  | begun _ => true
  | _ => false

/-- What a step may be while the input is read: visits are within it, one that ends has taken
something, and no loop runs out of rounds. -/
def Within (bs : List UInt8) : Step → Prop
  | opened | closed => True
  | begun input => input <:+ bs
  | finished input rest => input <:+ bs ∧ rest <:+ input ∧ rest.length < input.length
  | exhausted => False

theorem Within.of_suffix {bs rest : List UInt8} {step : Step} (h : step.Within rest)
    (hrest : rest <:+ bs) : step.Within bs := by
  cases step with
  | begun input => exact h.trans hrest
  | finished input rest' => exact ⟨h.1.trans hrest, h.2⟩
  | _ => exact h

end Step

/-- The number of visits that begin. -/
def visits (steps : List Step) : Nat := steps.countP Step.isBegun

/-- The greatest number of containers that are open at once. -/
def deepest : List Step → Nat
  | [] => 0
  | .opened :: steps => deepest steps + 1
  | .closed :: steps => deepest steps - 1
  | .begun _ :: steps | .finished _ _ :: steps | .exhausted :: steps => deepest steps

/-- Every container that is opened is closed again. -/
def Balanced (steps : List Step) : Prop :=
  ∀ more, deepest (steps ++ more) = max (deepest steps) (deepest more)

@[simp] theorem visits_append (steps more : List Step) :
    visits (steps ++ more) = visits steps + visits more :=
  List.countP_append

theorem visits_cons (step : Step) (steps : List Step) :
    visits (step :: steps) = visits [step] + visits steps :=
  visits_append [step] steps

theorem balanced_nil : Balanced [] := fun _ => (Nat.zero_max _).symm

theorem Balanced.deepest_append {steps : List Step} (h : Balanced steps) (more : List Step) :
    deepest (steps ++ more) = max (deepest steps) (deepest more) := h more

theorem Balanced.append {steps more : List Step} (h : Balanced steps) (hmore : Balanced more) :
    Balanced (steps ++ more) := by
  intro last
  rw [List.append_assoc, h.deepest_append, hmore.deepest_append, h.deepest_append, Nat.max_assoc]

theorem Balanced.visit {steps : List Step} (h : Balanced steps) (input input' rest : List UInt8) :
    Balanced (.begun input :: (steps ++ [.finished input' rest])) := by
  intro more
  simp only [List.cons_append, List.append_assoc, List.nil_append, deepest, h.deepest_append]
  omega

theorem Balanced.enclose {steps : List Step} (h : Balanced steps) :
    Balanced (.opened :: (steps ++ [.closed])) := by
  intro more
  simp only [List.cons_append, List.append_assoc, List.nil_append, deepest, h.deepest_append]
  omega

/-- What is known of a reader at its input: it takes as many bytes as it visits entries, and some more;
if it fails, it may have begun one visit without a byte for it. Containers nest inside it as deep as
there are levels. -/
structure Bounded (more levels : Nat) (bs : List UInt8) (x : Traced (α × List UInt8)) : Prop where
  ok : ∀ a rest, x.result = .ok (a, rest) →
    Balanced x.steps ∧ ∃ s, bs = s ++ rest ∧ visits x.steps + more ≤ s.length
  error : ∀ e, x.result = .error e → visits x.steps + more ≤ bs.length + 1
  within : ∀ step ∈ x.steps, step.Within bs
  deep : deepest x.steps ≤ levels

section

variable {levels : Nat} {bs : List UInt8}

theorem bounded_pure_append (a : α) (s rest : List UInt8) :
    Bounded 0 levels (s ++ rest) (pure (a, rest) : Traced (α × List UInt8)) where
  ok := by
    rintro _ _ ⟨⟩
    exact ⟨balanced_nil, s, rfl, Nat.zero_le _⟩
  error := nofun
  within := nofun
  deep := Nat.zero_le _

theorem bounded_pure (a : α) (bs : List UInt8) :
    Bounded 0 levels bs (pure (a, bs) : Traced (α × List UInt8)) :=
  bounded_pure_append a [] bs

theorem bounded_fail {more : Nat} (hmore : more ≤ 1) (e : DecodeError) :
    Bounded more levels bs (fail e : Traced (α × List UInt8)) where
  ok := nofun
  error _ _ := by
    simp only [fail, visits, List.countP_nil]
    omega
  within := nofun
  deep := Nat.zero_le _

/-- A reader of an item that holds no others. -/
theorem bounded_require {read : List UInt8 → Option (α × List UInt8)}
    (hread : SelfDelimiting fun bs => require (read bs)) (hnil : read [] = none)
    (bs : List UInt8) : Bounded 1 levels bs (require (read bs)) where
  ok a rest h := by
    rw [Traced.result_require] at h
    obtain ⟨s, hs, hpos⟩ := hread.exists_append (by simp [hnil, require]) h
    rw [Traced.steps_require]
    exact ⟨balanced_nil, s, hs, hpos⟩
  error _ _ := by
    rw [Traced.steps_require]
    exact Nat.succ_le_succ (Nat.zero_le _)
  within := by simp
  deep := by
    rw [Traced.steps_require]
    exact Nat.zero_le _

/-- A look at the input that takes nothing. -/
theorem Bounded.peek {γ : Type} {more : Nat} (hmore : more ≤ 1) {o : Option γ}
    {f : γ → Traced (α × List UInt8)} (h : ∀ c, Bounded more levels bs (f c)) :
    Bounded more levels bs (require o >>= f) := by
  cases o with
  | none => exact bounded_fail hmore .malformed
  | some c => exact h c

theorem Bounded.weaken {x : Traced (α × List UInt8)} (h : Bounded 1 levels bs x) :
    Bounded 0 levels bs x where
  ok a rest hx := by
    obtain ⟨hbalanced, s, hs, hle⟩ := h.ok a rest hx
    exact ⟨hbalanced, s, hs, Nat.le_of_succ_le hle⟩
  error e hx := Nat.le_of_succ_le (h.error e hx)
  within := h.within
  deep := h.deep

theorem Bounded.bind {more : Nat} {x : Traced (α × List UInt8)}
    {f : α × List UInt8 → Traced (β × List UInt8)} (h : Bounded more levels bs x)
    (hf : ∀ a rest, x.result = .ok (a, rest) → Bounded 0 levels rest (f (a, rest))) :
    Bounded more levels bs (x >>= f) := by
  cases hx : x.result with
  | error e =>
    have hsteps := Traced.steps_bind_of_error hx f
    refine ⟨?_, ?_, ?_, ?_⟩
    · intro b rest hb
      simp [hx, Bind.bind] at hb
    · intro e' he'
      rw [hsteps]
      exact h.error e hx
    · rw [hsteps]
      exact h.within
    · rw [hsteps]
      exact h.deep
  | ok r =>
    obtain ⟨a, rest⟩ := r
    have hsteps := Traced.steps_bind_of_ok hx f
    have hresult : (x >>= f).result = (f (a, rest)).result := by simp [hx]
    obtain ⟨hbalanced, s, rfl, hs⟩ := h.ok a rest hx
    have hnext := hf a rest hx
    refine ⟨?_, ?_, ?_, ?_⟩
    · intro b rest' hb
      obtain ⟨hbalanced', s', rfl, hs'⟩ := hnext.ok b rest' (hresult.symm.trans hb)
      refine ⟨by rw [hsteps]; exact hbalanced.append hbalanced', s ++ s',
        (List.append_assoc _ _ _).symm, ?_⟩
      rw [hsteps, visits_append, List.length_append]
      omega
    · intro e he
      have hle := hnext.error e (hresult.symm.trans he)
      rw [hsteps, visits_append, List.length_append]
      omega
    · intro step hstep
      rw [hsteps] at hstep
      rcases List.mem_append.mp hstep with hfirst | hsecond
      · exact h.within step hfirst
      · exact (hnext.within step hsecond).of_suffix (List.suffix_append _ _)
    · rw [hsteps, hbalanced]
      exact Nat.max_le.mpr ⟨h.deep, hnext.deep⟩

theorem Bounded.map {more : Nat} {x : Traced (α × List UInt8)} (h : Bounded more levels bs x)
    (f : α → β) : Bounded more levels bs (do
      let (a, bs) ← x
      return (f a, bs)) :=
  h.bind fun a rest _ => bounded_pure (f a) rest

end

section

variable {before : Step} {after : List UInt8 → Step} {read : ReaderIn Traced α} {bs : List UInt8}

theorem result_logging_eq : (logging before after read bs).result = (read bs).result := by
  rw [result_logging fun _ => rfl, logging_eq]

theorem steps_logging_of_ok {a : α} {rest : List UInt8} (h : (read bs).result = .ok (a, rest)) :
    (logging before after read bs).steps = before :: ((read bs).steps ++ [after rest]) := by
  simp only [logging]
  rw [Traced.steps_bind_of_ok rfl, Traced.steps_bind_of_ok h]
  rfl

theorem steps_logging_of_error {e : DecodeError} (h : (read bs).result = .error e) :
    (logging before after read bs).steps = before :: (read bs).steps := by
  simp only [logging]
  rw [Traced.steps_bind_of_ok rfl, Traced.steps_bind_of_error h]
  rfl

end

/-- What is told about an item before and after it: the byte that the item takes besides its visits
pays for what is told before. -/
theorem Bounded.logging {more levels levels' : Nat} {before : Step} {after : List UInt8 → Step}
    {read : ReaderIn Traced α} {bs : List UInt8} (h : Bounded 1 levels bs (read bs))
    (hmore : visits [before] + more = 1) (hbefore : before.Within bs)
    (hlevels : ∀ steps, deepest steps ≤ levels → deepest (before :: steps) ≤ levels')
    (hafter : ∀ s rest, bs = s ++ rest → 0 < s.length →
      (after rest).Within bs ∧ visits [after rest] = 0 ∧ deepest [after rest] = 0)
    (hbalanced : ∀ steps rest, Balanced steps → Balanced (before :: (steps ++ [after rest]))) :
    Bounded more levels' bs (logging before after read bs) := by
  cases hx : (read bs).result with
  | error e =>
    refine ⟨?_, ?_, ?_, ?_⟩
    · intro a rest ha
      rw [result_logging_eq, hx] at ha
      cases ha
    · intro e' he'
      have hle := h.error e hx
      rw [steps_logging_of_error hx, visits_cons]
      omega
    · rw [steps_logging_of_error hx, List.forall_mem_cons]
      exact ⟨hbefore, h.within⟩
    · rw [steps_logging_of_error hx]
      exact hlevels _ h.deep
  | ok r =>
    obtain ⟨a, rest⟩ := r
    obtain ⟨hinside, s, hs, hle⟩ := h.ok a rest hx
    obtain ⟨hwithin, hvisits, hdeepest⟩ := hafter s rest hs (by omega)
    refine ⟨?_, ?_, ?_, ?_⟩
    · intro a' rest' ha'
      rw [result_logging_eq, hx] at ha'
      cases ha'
      rw [steps_logging_of_ok hx]
      refine ⟨hbalanced _ rest hinside, s, hs, ?_⟩
      rw [visits_cons, visits_append, hvisits]
      omega
    · intro e he
      rw [result_logging_eq, hx] at he
      cases he
    · rw [steps_logging_of_ok hx]
      intro step hstep
      rw [List.mem_cons, List.mem_append, List.mem_singleton] at hstep
      rcases hstep with rfl | hstep | rfl
      · exact hbefore
      · exact h.within step hstep
      · exact hwithin
    · rw [steps_logging_of_ok hx]
      refine hlevels _ ?_
      rw [hinside.deepest_append, hdeepest, Nat.max_zero]
      exact h.deep

section

variable {levels : Nat} {entry : ReaderIn Traced α} (hentry : ∀ bs, Bounded 1 levels bs (entry bs))

include hentry

theorem bounded_visit (bs : List UInt8) : Bounded 0 levels bs (visit entry bs) := by
  refine (hentry bs).logging rfl (List.suffix_refl bs) (fun _ hle => hle) ?_
    fun _ _ hbalanced => hbalanced.visit _ _ _
  rintro s rest rfl hpos
  refine ⟨⟨List.suffix_refl _, List.suffix_append _ _, ?_⟩, rfl, rfl⟩
  rw [List.length_append]
  omega

theorem bounded_next {go : ReaderIn Traced (List α)} {bs : List UInt8}
    (hgo : ∀ rest, rest.length < bs.length → Bounded 0 levels rest (go rest)) :
    Bounded 0 levels bs (readNext entry go bs) := by
  refine (bounded_visit hentry bs).bind fun a rest ha => (hgo rest ?_).map (a :: ·)
  rw [visit, result_logging_eq] at ha
  obtain ⟨-, s, rfl, hs⟩ := (hentry bs).ok a rest ha
  rw [List.length_append]
  omega

theorem bounded_exactly (n : Nat) (bs : List UInt8) :
    Bounded 0 levels bs (readExactly entry n bs) := by
  induction n generalizing bs with
  | zero => exact bounded_pure [] bs
  | succ n ih => exact bounded_next hentry fun rest _ => ih rest

/-- A loop up to a stop byte ends by itself, since every visit takes something. -/
theorem bounded_untilStop {rounds : Nat} {bs : List UInt8} (hrounds : bs.length < rounds) :
    Bounded 0 levels bs (readUntilStop entry rounds bs) := by
  induction rounds generalizing bs with
  | zero => exact absurd hrounds (Nat.not_lt_zero _)
  | succ rounds ih =>
    have hnext : Bounded 0 levels bs (readNext entry (readUntilStop entry rounds) bs) :=
      bounded_next hentry fun rest hrest => ih (by omega)
    rw [readUntilStop, kind]
    cases hk : Cbor.kind? bs with
    | none => exact bounded_fail (Nat.zero_le _) .malformed
    | some k =>
      cases k with
      | stop =>
        obtain ⟨rest, rfl⟩ : ∃ rest, bs = Cbor.stopByte :: rest := ⟨_, Cbor.kind?_eq_stop hk⟩
        exact bounded_pure_append [] [Cbor.stopByte] rest
      | _ => exact hnext

theorem bounded_entries (major : Nat) (bs : List UInt8) :
    Bounded 1 (levels + 1) bs (readEntries major entry bs) := by
  have hhead : SelfDelimiting fun bs => require (Cbor.readCount major bs) :=
    selfDelimiting_require Cbor.readCount_eq_some_iff
  have hcounted (count : Option Nat) (rest : List UInt8) :
      Bounded 0 levels rest (readCounted entry count rest) := by
    cases count with
    | some n => exact bounded_exactly hentry n rest
    | none => exact bounded_untilStop hentry (Nat.lt_succ_self _)
  rw [readEntries, enclose]
  refine Bounded.logging ?_ rfl trivial (fun _ hle => Nat.succ_le_succ hle)
    (fun _ _ _ _ => ⟨trivial, rfl, rfl⟩) fun _ _ hbalanced => hbalanced.enclose
  exact (bounded_require hhead rfl bs).bind fun count rest _ => hcounted count rest

end

structure ContainersIn.Bounded (levels : Nat) (c : ContainersIn Traced) : Prop where
  object : ∀ bs, Decoding.Bounded 1 levels bs (c.object bs)
  array : ∀ bs, Decoding.Bounded 1 levels bs (c.array bs)

theorem bounded_int {levels : Nat} (bs : List UInt8) :
    Bounded 1 levels bs (readInt bs : Traced (Value × List UInt8)) := by
  have hread : SelfDelimiting fun bs => require (Cbor.readInt bs) :=
    selfDelimiting_require Cbor.readInt_eq_some_iff
  refine (bounded_require hread rfl bs).bind fun n rest _ => ?_
  dsimp only
  split_ifs
  · exact bounded_pure _ rest
  · exact bounded_fail (Nat.zero_le _) _

section

variable {levels : Nat} {inner : ContainersIn Traced} (h : inner.Bounded levels)

include h

theorem bounded_value (bs : List UInt8) : Bounded 1 levels bs (readValue inner bs) := by
  refine Bounded.peek (Nat.le_refl _) fun k => ?_
  cases k with
  | bool =>
    exact (bounded_require (selfDelimiting_require Cbor.readBool_eq_some_iff) rfl bs).map
      fun b => some (Value.bool b)
  | integer => exact (bounded_int bs).map some
  | float =>
    exact (bounded_require (selfDelimiting_require Cbor.readDouble_eq_some_iff) rfl bs).map
      fun x => some (Value.double x)
  | text =>
    exact (bounded_require (selfDelimiting_require Cbor.readText_eq_some_iff) rfl bs).map
      fun s => some (Value.text s)
  | bytes =>
    exact (bounded_require (selfDelimiting_require Cbor.readBytes_eq_some_iff) rfl bs).map
      fun s => some (Value.bytes s)
  | map => exact (h.object bs).map fun properties => some (Value.object properties)
  | array => exact (h.array bs).map some
  | null | undefined | tag | simple => exact bounded_require selfDelimiting_skip rfl bs
  | stop | unknown => exact bounded_fail (Nat.le_refl _) _

theorem bounded_property (bs : List UInt8) : Bounded 1 levels bs (readProperty inner bs) := by
  have hname : SelfDelimiting fun bs => require (Cbor.readText bs) :=
    selfDelimiting_require Cbor.readText_eq_some_iff
  refine Bounded.peek (Nat.le_refl _) fun k => ?_
  cases k with
  | text =>
    refine (bounded_require hname rfl bs).bind fun name rest _ => ?_
    dsimp only
    split_ifs
    · exact bounded_fail (Nat.zero_le _) _
    · exact (bounded_value h rest).weaken.map (·.map (name, ·))
  | _ => exact bounded_fail (Nat.le_refl _) _

theorem bounded_object (bs : List UInt8) : Bounded 1 (levels + 1) bs (readObject inner bs) :=
  (bounded_entries (bounded_property h) Cbor.mapItem bs).map (List.filterMap id)

theorem bounded_array (bs : List UInt8) : Bounded 1 (levels + 1) bs (readArray inner bs) :=
  (bounded_entries (bounded_value h) Cbor.arrayItem bs).bind fun _ rest _ =>
    Bounded.peek (Nat.zero_le _) fun v => bounded_pure v rest

theorem bounded_root (bs : List UInt8) : Bounded 1 levels bs (readRoot inner bs) := by
  refine Bounded.peek (Nat.le_refl _) fun k => ?_
  cases k with
  | map => exact h.object bs
  | _ => exact bounded_fail (Nat.le_refl _) _

end

theorem bounded_containers (levels : Nat) : (containersIn Traced levels).Bounded levels := by
  induction levels with
  | zero =>
    exact ⟨fun _ => bounded_fail (Nat.le_refl _) _, fun _ => bounded_fail (Nat.le_refl _) _⟩
  | succ levels ih => exact ⟨bounded_object ih, bounded_array ih⟩

theorem bounded_payload (bs : List UInt8) : Bounded 1 maxDepth bs (readPayloadIn Traced bs) := by
  refine Bounded.peek (Nat.le_refl _) fun k => ?_
  cases k with
  | map => exact ((bounded_containers maxDepth).object bs).map Payload.object
  | array =>
    exact (bounded_entries (bounded_root (bounded_containers (maxDepth - 1))) Cbor.arrayItem bs).map
      Payload.objects
  | _ => exact bounded_fail (Nat.le_refl _) _

theorem Bounded.visits_le {levels : Nat} {bs : List UInt8} {x : Traced (α × List UInt8)}
    (h : Bounded 1 levels bs x) : visits x.steps ≤ bs.length := by
  cases hx : x.result with
  | error e => exact Nat.le_of_succ_le_succ (h.error e hx)
  | ok r =>
    obtain ⟨a, rest⟩ := r
    obtain ⟨-, s, rfl, hs⟩ := h.ok a rest hx
    rw [List.length_append]
    omega

/-- Nothing more happens once the payload has been read. -/
theorem steps_trace {bs : List UInt8} (hne : bs ≠ []) :
    (trace bs).steps = (readPayloadIn Traced bs).steps := by
  cases bs with
  | nil => exact absurd rfl hne
  | cons b bs =>
    simp only [trace, Payload.decodeIn]
    cases hx : (readPayloadIn Traced (b :: bs)).result with
    | error e => exact Traced.steps_bind_of_error hx _
    | ok r =>
      obtain ⟨p, rest⟩ := r
      rw [Traced.steps_bind_of_ok hx]
      dsimp only
      split_ifs <;> exact List.append_nil _

end Decoding

namespace Payload

open Decoding

/-- Decoding ends by itself, whatever the input declares. Every entry that it visits takes at least one
byte of the input, so there are no more visits than bytes; no more containers are open at once than are
allowed to nest; and what comes out is no larger than the input. -/
theorem decode_work (bs : List UInt8) :
    (trace bs).result = decode bs ∧ .exhausted ∉ (trace bs).steps ∧
    (∀ input, .begun input ∈ (trace bs).steps → input <:+ bs) ∧
    (∀ input rest, .finished input rest ∈ (trace bs).steps →
      input <:+ bs ∧ rest <:+ input ∧ rest.length < input.length) ∧
    visits (trace bs).steps ≤ bs.length ∧ deepest (trace bs).steps ≤ maxDepth ∧
    ∀ p, decode bs = .ok p → p.size ≤ bs.length := by
  refine ⟨result_trace bs, ?_⟩
  by_cases hne : bs = []
  · subst hne
    refine ⟨nofun, nofun, nofun, Nat.le_refl _, Nat.zero_le _, fun p => size_le_of_decode⟩
  · have hbounded := bounded_payload bs
    rw [steps_trace hne]
    exact ⟨hbounded.within .exhausted, fun input => hbounded.within (.begun input),
      fun input rest => hbounded.within (.finished input rest), hbounded.visits_le, hbounded.deep,
      fun p => size_le_of_decode⟩

/-- An array of more than 10 ^ 19 declared objects that ends with its head: one visit begins. -/
example : visits (trace (0x9b :: List.replicate 8 0xff)).steps = 1 := by decide +kernel

end Payload

end DeviceClient
