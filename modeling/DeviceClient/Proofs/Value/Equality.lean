import Mathlib.Data.List.Forall2
import DeviceClient.Proofs.Payload.Form

namespace DeviceClient

namespace Double

/-- Whether it is a number and not the negative zero, so that equal means the same bits. -/
def isProper (x : Double) : Bool := !x.isNaN && !(x.isZero && x.isNegative)

theorem bits_eq_zero {x : Double} (hzero : x.isZero = true) (hsign : x.isNegative = false) :
    x.bits = 0 := by
  have hmagnitude : x.bits.toNat % 2 ^ 63 = 0 := by simpa [isZero, magnitude] using hzero
  have hlow : x.bits.toNat < 2 ^ 63 := by simpa [isNegative] using hsign
  apply UInt64.toNat_inj.mp
  rwa [Nat.mod_eq_of_lt hlow] at hmagnitude

theorem agrees_iff_eq {x y : Double} (hx : x.isProper = true) (hy : y.isProper = true) :
    x.agrees y = true ↔ x = y := by
  simp only [isProper, Bool.and_eq_true, Bool.not_eq_true'] at hx hy
  have hsame : x.isZero = true ∧ y.isZero = true → x = y := by
    rintro ⟨hxzero, hyzero⟩
    rw [hxzero, Bool.true_and] at hx
    rw [hyzero, Bool.true_and] at hy
    obtain ⟨xbits⟩ := x
    obtain ⟨ybits⟩ := y
    exact congrArg Double.mk ((bits_eq_zero hxzero hx.2).trans (bits_eq_zero hyzero hy.2).symm)
  simp only [agrees, hx.1, hy.1, Bool.not_false, Bool.true_and, Bool.or_eq_true, beq_iff_eq,
    Bool.and_eq_true]
  exact ⟨fun h => h.elim id hsame, Or.inl⟩

end Double

namespace Value

/-- Lists are related entry by entry when they have the same image, if entries are related when they
have the same image. -/
theorem forall₂_iff_map_eq {α β : Type} {R : α → α → Prop} {f : α → β} {as bs : List α}
    (h : ∀ a ∈ as, ∀ b ∈ bs, (R a b ↔ f a = f b)) :
    List.Forall₂ R as bs ↔ as.map f = bs.map f := by
  induction as generalizing bs with
  | nil => cases bs <;> simp
  | cons a as ih =>
    cases bs with
    | nil => simp
    | cons b bs =>
      have hfirst := h a List.mem_cons_self b List.mem_cons_self
      have hrest := ih fun a ha b hb => h a (List.mem_cons_of_mem _ ha) b (List.mem_cons_of_mem _ hb)
      rw [List.forall₂_cons, List.map_cons, List.map_cons, List.cons.injEq, hfirst, hrest]

theorem agreesValues_iff {vs ws : List Value} :
    agreesValues vs ws = true ↔ List.Forall₂ (fun v w => v.agrees w = true) vs ws := by
  induction vs generalizing ws with
  | nil => cases ws <;> simp [agreesValues]
  | cons v vs ih =>
    cases ws with
    | nil => simp [agreesValues]
    | cons w ws => rw [agreesValues, Bool.and_eq_true, ih, List.forall₂_cons]

theorem agreesProperties_iff {ps qs : List (String × Value)} :
    agreesProperties ps qs = true ↔
      List.Forall₂ (fun p q => p.1 = q.1 ∧ p.2.agrees q.2 = true) ps qs := by
  induction ps generalizing qs with
  | nil => cases qs <;> simp [agreesProperties]
  | cons p ps ih =>
    cases qs with
    | nil => simp [agreesProperties]
    | cons q qs =>
      obtain ⟨name, v⟩ := p
      obtain ⟨other, w⟩ := q
      rw [agreesProperties, agreesProperty, Bool.and_eq_true, Bool.and_eq_true, beq_iff_eq, ih,
        List.forall₂_cons]

theorem agreesObjects_iff {os ms : List (List (String × Value))} :
    agreesObjects os ms = true ↔ List.Forall₂ (fun o m => agreesProperties o m = true) os ms := by
  induction os generalizing ms with
  | nil => cases ms <;> simp [agreesObjects]
  | cons o os ih =>
    cases ms with
    | nil => simp [agreesObjects]
    | cons m ms => rw [agreesObjects, Bool.and_eq_true, ih, List.forall₂_cons]

/-- What two equal values look like. -/
inductive Alike : Value → Value → Prop
  | int (n : Int64) : Alike (.int n) (.int n)
  | bool (b : Bool) : Alike (.bool b) (.bool b)
  | double {x y : Double} (h : x.agrees y = true) : Alike (.double x) (.double y)
  | text (s : String) : Alike (.text s) (.text s)
  | bytes (bs : List UInt8) : Alike (.bytes bs) (.bytes bs)
  | array {vs ws : List Value} (h : agreesValues vs ws = true) : Alike (.array vs) (.array ws)
  | object {ps qs : List (String × Value)} (h : agreesProperties ps qs = true) :
      Alike (.object ps) (.object qs)
  | objects {os ms : List (List (String × Value))} (h : agreesObjects os ms = true) :
      Alike (.objects os) (.objects ms)
  | emptyArray : Alike (.array []) (.objects [])
  | emptyObjects : Alike (.objects []) (.array [])

theorem alike_of_array {vs : List Value} {w : Value} (h : (array vs).agrees w = true) :
    Alike (.array vs) w := by
  cases w with
  | array ws => exact .array h
  | objects ms =>
    simp only [agrees, Bool.and_eq_true, List.isEmpty_iff] at h
    obtain ⟨rfl, rfl⟩ := h
    exact .emptyArray
  | _ => cases h

theorem alike_of_objects {os : List (List (String × Value))} {w : Value}
    (h : (objects os).agrees w = true) : Alike (.objects os) w := by
  cases w with
  | array ws =>
    simp only [agrees, Bool.and_eq_true, List.isEmpty_iff] at h
    obtain ⟨rfl, rfl⟩ := h
    exact .emptyObjects
  | objects ms => exact .objects h
  | _ => cases h

theorem alike_of_agrees {v w : Value} (h : v.agrees w = true) : Alike v w := by
  cases v with
  | int n =>
    cases w with
    | int m => exact eq_of_beq h ▸ .int n
    | _ => cases h
  | bool b =>
    cases w with
    | bool c => exact eq_of_beq h ▸ .bool b
    | _ => cases h
  | double x =>
    cases w with
    | double y => exact .double h
    | _ => cases h
  | text s =>
    cases w with
    | text t => exact eq_of_beq h ▸ .text s
    | _ => cases h
  | bytes bs =>
    cases w with
    | bytes cs => exact eq_of_beq h ▸ .bytes bs
    | _ => cases h
  | array vs => exact alike_of_array h
  | object ps =>
    cases w with
    | object qs => exact .object h
    | _ => cases h
  | objects os => exact alike_of_objects h

theorem kind_eq_of_agrees {v w : Value} (h : v.agrees w = true) : v.kind = w.kind := by
  cases alike_of_agrees h <;> rfl

/-- No double is NaN or a negative zero, at any depth. -/
inductive Proper : Value → Prop
  | int (n : Int64) : Proper (.int n)
  | bool (b : Bool) : Proper (.bool b)
  | double {x : Double} (h : x.isProper = true) : Proper (.double x)
  | text (s : String) : Proper (.text s)
  | bytes (bs : List UInt8) : Proper (.bytes bs)
  | array {values : List Value} (h : ∀ v ∈ values, Proper v) : Proper (.array values)
  | object {properties : List (String × Value)} (h : ∀ p ∈ properties, Proper p.2) :
      Proper (.object properties)
  | objects {members : List (List (String × Value))} (h : ∀ m ∈ members, Proper (.object m)) :
      Proper (.objects members)

theorem kind_normal (v : Value) : v.normal.kind = v.kind := by
  cases v with
  | objects members => cases members <;> rfl
  | _ => rfl

/-- The value is equal to exactly the proper values of its kind that have its normal form. -/
def AgreesAsNormal (v : Value) : Prop :=
  v.Proper → ∀ w : Value, w.Proper → v.kind = w.kind → (v.agrees w = true ↔ v.normal = w.normal)

theorem AgreesAsNormal.iff {v w : Value} (h : v.AgreesAsNormal) (hv : v.Proper) (hw : w.Proper) :
    v.agrees w = true ↔ v.normal = w.normal := by
  by_cases hkind : v.kind = w.kind
  · exact h hv w hw hkind
  · refine ⟨fun hagrees => absurd (kind_eq_of_agrees hagrees) hkind, fun hnormal => ?_⟩
    have hkinds := congrArg kind hnormal
    rw [kind_normal, kind_normal] at hkinds
    exact absurd hkinds hkind

theorem agreesValues_iff_normal {vs ws : List Value} (hvs : (array vs).Proper)
    (hws : (array ws).Proper) (h : ∀ v ∈ vs, v.AgreesAsNormal) :
    agreesValues vs ws = true ↔ normalValues vs = normalValues ws := by
  cases hvs with
  | array hvs =>
    cases hws with
    | array hws =>
      rw [agreesValues_iff, normalValues_eq_map, normalValues_eq_map]
      exact forall₂_iff_map_eq fun v hv w hw => (h v hv).iff (hvs v hv) (hws w hw)

theorem agreesProperties_iff_normal {ps qs : List (String × Value)} (hps : (object ps).Proper)
    (hqs : (object qs).Proper) (h : ∀ p ∈ ps, p.2.AgreesAsNormal) :
    agreesProperties ps qs = true ↔ normalProperties ps = normalProperties qs := by
  cases hps with
  | object hps =>
    cases hqs with
    | object hqs =>
      rw [agreesProperties_iff, normalProperties_eq_map, normalProperties_eq_map]
      refine forall₂_iff_map_eq fun p hp q hq => ?_
      rw [Prod.mk.injEq, (h p hp).iff (hps p hp) (hqs q hq)]

theorem agreesObjects_iff_normal {os ms : List (List (String × Value))}
    (hos : (objects os).Proper) (hms : (objects ms).Proper)
    (h : ∀ o ∈ os, ∀ p ∈ o, p.2.AgreesAsNormal) :
    agreesObjects os ms = true ↔ normalObjects os = normalObjects ms := by
  cases hos with
  | objects hos =>
    cases hms with
    | objects hms =>
      rw [agreesObjects_iff, normalObjects_eq_map, normalObjects_eq_map]
      exact forall₂_iff_map_eq fun o ho m hm =>
        agreesProperties_iff_normal (hos o ho) (hms m hm) (h o ho)

/-- An array of values and one of objects are equal, and have the same normal form, when both are
empty. -/
theorem array_agrees_objects_iff {vs : List Value} {os : List (List (String × Value))} :
    (array vs).agrees (objects os) = true ↔ (array vs).normal = (objects os).normal := by
  cases os with
  | nil =>
    rw [agrees, normal, normal, List.isEmpty_nil, Bool.and_true, if_pos rfl, array.injEq,
      normalValues_eq_map, List.map_eq_nil_iff, List.isEmpty_iff]
  | cons o os => simp [agrees, normal]

theorem objects_agrees_array (os : List (List (String × Value))) (vs : List Value) :
    (objects os).agrees (array vs) = (array vs).agrees (objects os) := by
  rw [agrees, agrees, Bool.and_comm]

theorem objects_agrees_objects_iff {os ms : List (List (String × Value))}
    (h : agreesObjects os ms = true ↔ normalObjects os = normalObjects ms) :
    (objects os).agrees (objects ms) = true ↔ (objects os).normal = (objects ms).normal := by
  rw [agrees, h]
  cases os <;> cases ms <;> simp [normal, normalObjects]

theorem agreesAsNormal (v : Value) : v.AgreesAsNormal := by
  induction v using Value.induction with
  | int n =>
    intro _ w _ hkind
    cases w with
    | int m => simp [agrees, normal]
    | _ => cases hkind
  | bool b =>
    intro _ w _ hkind
    cases w with
    | bool c => simp [agrees, normal]
    | _ => cases hkind
  | double x =>
    intro hx w hw hkind
    cases w with
    | double y =>
      cases hx with
      | double hx =>
        cases hw with
        | double hy => exact (Double.agrees_iff_eq hx hy).trans (double.injEq x y).symm.to_iff
    | _ => cases hkind
  | text s =>
    intro _ w _ hkind
    cases w with
    | text t => simp [agrees, normal]
    | _ => cases hkind
  | bytes bs =>
    intro _ w _ hkind
    cases w with
    | bytes cs => simp [agrees, normal]
    | _ => cases hkind
  | array values ih =>
    intro hvs w hw hkind
    -- Arrays of values and of objects are of one kind, so either can be on the other side.
    cases w with
    | array ws =>
      rw [agrees, agreesValues_iff_normal hvs hw ih, normal, normal, array.injEq]
    | objects ms => exact array_agrees_objects_iff
    | _ => cases hkind
  | object properties ih =>
    intro hps w hw hkind
    cases w with
    | object qs =>
      rw [agrees, agreesProperties_iff_normal hps hw ih, normal, normal, object.injEq]
    | _ => cases hkind
  | objects members ih =>
    intro hos w hw hkind
    cases w with
    | array ws => rw [objects_agrees_array, array_agrees_objects_iff, eq_comm]
    | objects ms => exact objects_agrees_objects_iff (agreesObjects_iff_normal hos hw ih)
    | _ => cases hkind

/-- Without NaN and negative zeros, equal values are those with the same normal form. -/
theorem agrees_iff_normal_eq {v w : Value} (hv : v.Proper) (hw : w.Proper) :
    v.agrees w = true ↔ v.normal = w.normal :=
  v.agreesAsNormal.iff hv hw

end Value

end DeviceClient
