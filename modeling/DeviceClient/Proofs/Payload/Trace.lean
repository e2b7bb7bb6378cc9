import Mathlib.Tactic.SplitIfs
import DeviceClient.Payload.Decoding

namespace DeviceClient.Decoding

open Reading (fail log)

variable {α β : Type}

/-- A result, and what happens until it is there. -/
structure Traced (α : Type) where
  steps : List Step
  result : Except DecodeError α

namespace Traced

instance : Monad Traced where
  pure a := ⟨[], .ok a⟩
  bind x f :=
    match x.result with
    | .ok a => ⟨x.steps ++ (f a).steps, (f a).result⟩
    | .error e => ⟨x.steps, .error e⟩

instance : Reading Traced where
  fail e := ⟨[], .error e⟩
  log step := ⟨[step], .ok ()⟩

@[simp] theorem result_pure (a : α) : (pure a : Traced α).result = pure a := rfl

@[simp] theorem result_fail (e : DecodeError) : (fail e : Traced α).result = fail e := rfl

@[simp] theorem result_log (step : Step) : (log step : Traced Unit).result = log step := rfl

@[simp] theorem result_bind (x : Traced α) (f : α → Traced β) :
    (x >>= f).result = x.result >>= fun a => (f a).result := by
  cases hx : x.result <;> simp [bind, Except.bind, hx]

@[simp] theorem result_require (o : Option α) : (require o : Traced α).result = require o := by
  cases o <;> rfl

@[simp] theorem steps_require (o : Option α) : (require o : Traced α).steps = [] := by
  cases o <;> rfl

@[simp] theorem result_kind (bs : List UInt8) : (kind bs : Traced Cbor.Kind).result = kind bs :=
  result_require _

theorem steps_bind_of_ok {x : Traced α} {a : α} (hx : x.result = .ok a) (f : α → Traced β) :
    (x >>= f).steps = x.steps ++ (f a).steps := by
  simp [bind, hx]

theorem steps_bind_of_error {x : Traced α} {e : DecodeError} (hx : x.result = .error e)
    (f : α → Traced β) : (x >>= f).steps = x.steps := by
  simp [bind, hx]

end Traced

section

variable {entry : ReaderIn Traced α} {plain : Reader α} (h : ∀ bs, (entry bs).result = plain bs)

include h

theorem result_logging (before : Step) (after : List UInt8 → Step) (bs : List UInt8) :
    (logging before after entry bs).result = logging before after plain bs := by
  simp [logging, h]

theorem result_readNext {go : ReaderIn Traced (List α)} {goPlain : Reader (List α)}
    (hgo : ∀ bs, (go bs).result = goPlain bs) (bs : List UInt8) :
    (readNext entry go bs).result = readNext plain goPlain bs := by
  simp [readNext, visit, result_logging h, hgo]

theorem result_readExactly (n : Nat) (bs : List UInt8) :
    (readExactly entry n bs).result = readExactly plain n bs := by
  induction n generalizing bs with
  | zero => rfl
  | succ n ih => exact result_readNext h ih bs

theorem result_readUntilStop (rounds : Nat) (bs : List UInt8) :
    (readUntilStop entry rounds bs).result = readUntilStop plain rounds bs := by
  induction rounds generalizing bs with
  | zero => rfl
  | succ rounds ih =>
    simp only [readUntilStop, Traced.result_bind, Traced.result_kind]
    refine bind_congr fun k => ?_
    cases k with
    | stop => rfl
    | _ => exact result_readNext h ih bs

theorem result_readEntries (major : Nat) (bs : List UInt8) :
    (readEntries major entry bs).result = readEntries major plain bs := by
  simp only [readEntries, enclose]
  refine result_logging (fun bs => ?_) _ _ bs
  rw [Traced.result_bind, Traced.result_require]
  refine bind_congr fun ⟨count, bs⟩ => ?_
  cases count with
  | some n => exact result_readExactly h n bs
  | none => exact result_readUntilStop h _ bs

end

/-- Containers that are traced as they are read. -/
structure ContainersIn.Traces (traced : ContainersIn Traced)
    (plain : ContainersIn (Except DecodeError)) : Prop where
  object : ∀ bs, (traced.object bs).result = plain.object bs
  array : ∀ bs, (traced.array bs).result = plain.array bs

theorem result_readInt (bs : List UInt8) : (readInt bs : Traced _).result = readInt bs := by
  simp only [readInt, Traced.result_bind, Traced.result_require]
  refine bind_congr fun ⟨n, bs⟩ => ?_
  dsimp only
  split_ifs <;> rfl

section

variable {traced : ContainersIn Traced} {plain : ContainersIn (Except DecodeError)}
  (h : traced.Traces plain)

include h

theorem result_readValue (bs : List UInt8) : (readValue traced bs).result = readValue plain bs := by
  simp only [readValue, Traced.result_bind, Traced.result_kind]
  refine bind_congr fun k => ?_
  cases k <;> simp [result_readInt, h.object, h.array]

theorem result_readProperty (bs : List UInt8) :
    (readProperty traced bs).result = readProperty plain bs := by
  simp only [readProperty, Traced.result_bind, Traced.result_kind]
  refine bind_congr fun k => ?_
  cases k with
  | text =>
    simp only [Traced.result_bind, Traced.result_require]
    refine bind_congr fun ⟨name, bs⟩ => ?_
    dsimp only
    split_ifs
    · rfl
    · simp [result_readValue h]
  | _ => rfl

theorem result_readRoot (bs : List UInt8) : (readRoot traced bs).result = readRoot plain bs := by
  simp only [readRoot, Traced.result_bind, Traced.result_kind]
  refine bind_congr fun k => ?_
  cases k with
  | map => exact h.object bs
  | _ => rfl

theorem result_readObject (bs : List UInt8) :
    (readObject traced bs).result = readObject plain bs := by
  simp [readObject, result_readEntries (result_readProperty h)]

theorem result_readArray (bs : List UInt8) : (readArray traced bs).result = readArray plain bs := by
  simp [readArray, result_readEntries (result_readValue h)]

end

theorem traces_containers (levels : Nat) :
    (containersIn Traced levels).Traces (containersIn _ levels) := by
  induction levels with
  | zero => exact ⟨fun _ => rfl, fun _ => rfl⟩
  | succ levels ih => exact ⟨result_readObject ih, result_readArray ih⟩

theorem result_readPayload (bs : List UInt8) :
    (readPayloadIn Traced bs).result = readPayloadIn _ bs := by
  simp only [readPayloadIn, Traced.result_bind, Traced.result_kind]
  refine bind_congr fun k => ?_
  cases k with
  | map => simp [(traces_containers maxDepth).object]
  | array => simp [result_readEntries (result_readRoot (traces_containers (maxDepth - 1)))]
  | _ => rfl

/-- The decoding of a payload, with all that happens. -/
def trace (bs : List UInt8) : Traced Payload := Payload.decodeIn Traced bs

/-- Tracing changes nothing about what is decoded. -/
theorem result_trace (bs : List UInt8) : (trace bs).result = Payload.decode bs := by
  cases bs with
  | nil => rfl
  | cons b bs =>
    simp only [trace, Payload.decode, Payload.decodeIn, Traced.result_bind, result_readPayload]
    refine bind_congr fun ⟨p, rest⟩ => ?_
    dsimp only
    split_ifs <;> rfl

end DeviceClient.Decoding
