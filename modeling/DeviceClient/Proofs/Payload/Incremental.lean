import DeviceClient.Proofs.Payload.Leftovers

namespace DeviceClient

namespace ObjectEncoder

/-- A call that adds a property: the setter of a type, or the one that takes any value. -/
inductive Call where
  | int (name : String) (n : Int64)
  | bool (name : String) (b : Bool)
  | double (name : String) (x : Double)
  | text (name s : String)
  | bytes (name : String) (bs : List UInt8)
  | any (name : String) (v : Value)

/-- The property that a call adds. -/
def Call.property : Call → String × Value
  | .int name n => (name, .int n)
  | .bool name b => (name, .bool b)
  | .double name x => (name, .double x)
  | .text name s => (name, .text s)
  | .bytes name bs => (name, .bytes bs)
  | .any name v => (name, v)

def perform (e : ObjectEncoder) : Call → ObjectEncoder
  | .int name n => e.setInt name n
  | .bool name b => e.setBool name b
  | .double name x => e.setDouble name x
  | .text name s => e.setText name s
  | .bytes name bs => e.setBytes name bs
  | .any name v => e.set name v

def performAll (e : ObjectEncoder) (calls : List Call) : ObjectEncoder := calls.foldl perform e

/-- What the calls answer, one after the other. -/
def answers (e : ObjectEncoder) : List Call → List (Except EncodingError Unit)
  | [] => []
  | call :: calls => (e.perform call).answer :: answers (e.perform call) calls

/-- The setter of a type does what the setter of any value does. -/
theorem perform_eq_set (e : ObjectEncoder) (call : Call) :
    e.perform call = e.set call.property.1 call.property.2 := by
  cases call <;> rfl

theorem performAll_eq_offerAll (e : ObjectEncoder) (calls : List Call) :
    e.performAll calls = e.offerAll (calls.map Call.property) := by
  have hperform : perform = fun e call => e.set call.property.1 call.property.2 :=
    funext fun e => funext (perform_eq_set e)
  rw [performAll, offerAll, List.foldl_map, hperform]

theorem performAll_append (e : ObjectEncoder) (calls more : List Call) :
    e.performAll (calls ++ more) = (e.performAll calls).performAll more :=
  List.foldl_append

theorem tidy_performAll (b : Buffer) (calls : List Call) :
    ((start b).performAll calls).Tidy b.capacity := by
  rw [performAll_eq_offerAll]
  exact (Tidy.start b).offerAll _

theorem answer_eq_error_iff {e : ObjectEncoder} {error : EncodingError} :
    e.answer = .error error ↔ e.failure = some error := by
  unfold answer
  cases e.failure <;> simp

theorem answer_eq_ok_iff {e : ObjectEncoder} : e.answer = .ok () ↔ e.failure = none := by
  unfold answer
  cases e.failure <;> simp

theorem append_of_failed {e : ObjectEncoder} {error : EncodingError}
    (hfailure : e.failure = some error) (ws : List Write) : e.append ws = e := by
  simp only [append, hfailure]

namespace Tidy

variable {capacity : Nat} {e : ObjectEncoder} (h : e.Tidy capacity) {error : EncodingError}
  (hfailure : e.failure = some error)

include h hfailure

theorem buffer_eq_empty : e.buffer = Buffer.empty capacity := by
  have hcontent := h.emptied (by simp [hfailure])
  rw [Buffer.empty, ← h.capacity, ← hcontent]

/-- A second failure is not recorded, and the buffer is empty already. -/
theorem fail_of_failed (second : EncodingError) : e.fail second = e := by
  have hbuffer := h.buffer_eq_empty hfailure
  obtain ⟨buffer, failure⟩ := e
  dsimp only at hbuffer hfailure
  rw [hbuffer, hfailure]
  rfl

theorem setWrites_of_failed (name : String) (ws : List Write) : e.setWrites name ws = e := by
  have hname : (if name.isEmpty then e.fail .emptyName else e) = e := by
    rw [h.fail_of_failed hfailure, ite_self]
  rw [setWrites, hname, append_of_failed hfailure]

theorem set_of_failed (name : String) (v : Value) : e.set name v = e := by
  unfold ObjectEncoder.set
  cases v.fault? with
  | none => exact h.setWrites_of_failed hfailure name v.writes
  | some second =>
    have hsecond := h.fail_of_failed hfailure second
    simp only [hsecond]
    exact h.setWrites_of_failed hfailure name v.writes

theorem perform_of_failed (call : Call) : e.perform call = e := by
  rw [perform_eq_set, h.set_of_failed hfailure]

theorem offerAll_of_failed (r : Representation) : e.offerAll r = e := by
  induction r with
  | nil => rfl
  | cons p r ih =>
    have hset := h.set_of_failed hfailure p.1 p.2
    rw [ObjectEncoder.offerAll, List.foldl_cons, hset]
    exact ih

/-- Nothing that is called after a failure has an effect. -/
theorem performAll_of_failed (calls : List Call) : e.performAll calls = e := by
  rw [performAll_eq_offerAll, h.offerAll_of_failed hfailure]

theorem answers_of_failed (calls : List Call) :
    answers e calls = List.replicate calls.length (.error error) := by
  induction calls with
  | nil => rfl
  | cons call calls ih =>
    have hanswer := answer_eq_error_iff.mpr hfailure
    rw [answers, h.perform_of_failed hfailure, hanswer, ih, List.length_cons, List.replicate_succ]

theorem finish_of_failed : e.finish = (Buffer.empty capacity, .error error) := by
  have hbuffer := h.buffer_eq_empty hfailure
  simp only [finish, append_of_failed hfailure, hfailure, hbuffer]

omit hfailure in
/-- Going on after a failure comes to the same as stopping there. -/
theorem offerAll_eq_setAll (r : Representation) : e.offerAll r = e.setAll r := by
  induction r generalizing e with
  | nil => rfl
  | cons p r ih =>
    have hnext := h.set p.1 p.2
    rw [ObjectEncoder.setAll, ObjectEncoder.offerAll, List.foldl_cons]
    cases hfailure : (e.set p.1 p.2).failure with
    | none =>
      rw [Option.isSome_none, if_neg Bool.false_ne_true]
      exact ih hnext
    | some error =>
      rw [Option.isSome_some, if_pos rfl]
      exact hnext.offerAll_of_failed hfailure r

end Tidy

/-- If an encoding has not failed, none of the calls has. -/
theorem answers_of_answer_eq_ok {capacity : Nat} {e : ObjectEncoder} (h : e.Tidy capacity)
    {calls : List Call} (hanswer : (e.performAll calls).answer = .ok ()) :
    answers e calls = List.replicate calls.length (.ok ()) := by
  induction calls generalizing e with
  | nil => rfl
  | cons call calls ih =>
    have hnext : (e.perform call).Tidy capacity := by
      rw [perform_eq_set]
      exact h.set _ _
    have hrest : ((e.perform call).performAll calls).answer = .ok () := hanswer
    have hfirst : (e.perform call).answer = .ok () := by
      -- A failure of the first call would still be there in the end.
      cases hfailure : (e.perform call).failure with
      | none => exact answer_eq_ok_iff.mpr hfailure
      | some error => rwa [hnext.performAll_of_failed hfailure] at hrest
    rw [answers, hfirst, ih hnext hrest, List.length_cons, List.replicate_succ]

/-- The calls that add the properties of an object one by one, with answers that nobody looks at, leave
the buffer as the encoding of the whole object does, and with the same result. Up to the first failure
all calls succeed. After a failure the buffer is empty, and every call, whatever it adds, and the
closing of the object answer with that failure. -/
theorem performAll_agrees (b : Buffer) (calls : List Call) :
    ((start b).performAll calls).finish = b.encode (calls.map Call.property) ∧
    (((start b).performAll calls).answer = .ok () →
      answers (start b) calls = List.replicate calls.length (.ok ())) ∧
    ∀ error, ((start b).performAll calls).answer = .error error → ∀ more : List Call,
      answers ((start b).performAll calls) more = List.replicate more.length (.error error) ∧
      ((start b).performAll (calls ++ more)).buffer = Buffer.empty b.capacity ∧
      ((start b).performAll (calls ++ more)).finish =
        (Buffer.empty b.capacity, .error error) := by
  refine ⟨?_, answers_of_answer_eq_ok (Tidy.start b), fun error hanswer more => ?_⟩
  · rw [performAll_eq_offerAll, (Tidy.start b).offerAll_eq_setAll]
    rfl
  · have htidy := tidy_performAll b calls
    have hfailure := answer_eq_error_iff.mp hanswer
    rw [performAll_append, htidy.performAll_of_failed hfailure]
    exact ⟨htidy.answers_of_failed hfailure more, htidy.buffer_eq_empty hfailure,
      htidy.finish_of_failed hfailure⟩

/-- The text does not fit; the empty name and the object in an array that come later are not told. -/
theorem performAll_agrees_lamp :
    ((start ⟨8, [0]⟩).performAll [.bool "a" true]).answer = .ok () ∧
      answers (start ⟨8, [0]⟩) [.bool "a" true] = [.ok ()] ∧
      ((start ⟨8, [0]⟩).performAll [.bool "a" true, .text "n" "lamp"]).answer =
        .error (.bufferOverflow 8 11) ∧
      answers ((start ⟨8, [0]⟩).performAll [.bool "a" true, .text "n" "lamp"])
          [.int "" 1, .any "o" (.array [.object []])] =
        [.error (.bufferOverflow 8 11), .error (.bufferOverflow 8 11)] ∧
      ((start ⟨8, [0]⟩).performAll ([.bool "a" true, .text "n" "lamp"] ++
          [.int "" 1, .any "o" (.array [.object []])])).finish =
        (Buffer.empty 8, .error (.bufferOverflow 8 11)) := by
  have hfirst : ((start ⟨8, [0]⟩).performAll [.bool "a" true]).answer = .ok () := by
    rfl
  have hsecond : ((start ⟨8, [0]⟩).performAll [.bool "a" true, .text "n" "lamp"]).answer =
      .error (.bufferOverflow 8 11) := by
    rfl
  have hafter := (performAll_agrees _ _).2.2 _ hsecond [.int "" 1, .any "o" (.array [.object []])]
  exact ⟨hfirst, (performAll_agrees _ _).2.1 hfirst, hsecond, hafter.1, hafter.2.2⟩

end ObjectEncoder

end DeviceClient
