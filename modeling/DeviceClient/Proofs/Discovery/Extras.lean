import Mathlib.Data.List.Basic
import DeviceClient.Power
import DeviceClient.Resource.Link

namespace DeviceClient

/-- The second list has the elements of the first in their order, each up to `same`, and `extra`
elements strewn in. -/
inductive Strewn {α : Type} (same : α → α → Prop) (extra : α → Prop) : List α → List α → Prop
  | nil : Strewn same extra [] []
  | keep {a b : α} {as bs : List α} (h : same a b) (hrest : Strewn same extra as bs) :
      Strewn same extra (a :: as) (b :: bs)
  | insert {b : α} {as bs : List α} (h : extra b) (hrest : Strewn same extra as bs) :
      Strewn same extra as (b :: bs)

namespace Strewn

variable {α β : Type} {same : α → α → Prop} {extra : α → Prop}

theorem filterMap_eq {as bs : List α} (h : Strewn same extra as bs) {f : α → Option β}
    (hsame : ∀ a b, same a b → f b = f a) (hextra : ∀ b, extra b → f b = none) :
    bs.filterMap f = as.filterMap f := by
  induction h with
  | nil => rfl
  | keep h hrest ih => rw [List.filterMap_cons, List.filterMap_cons, hsame _ _ h, ih]
  | insert h hrest ih => rw [List.filterMap_cons_none (hextra _ h), ih]

/-- What is strewn in may all come before the elements that are kept. -/
theorem inserts {as bs cs : List α} (h : ∀ b ∈ bs, extra b) (hrest : Strewn same extra as cs) :
    Strewn same extra as (bs ++ cs) := by
  induction bs with
  | nil => exact hrest
  | cons b bs ih =>
    obtain ⟨hb, hbs⟩ := List.forall_mem_cons.mp h
    exact .insert hb (ih hbs)

end Strewn

namespace Representation

/-- The second object has the properties of the first, with values as `more` says, and others strewn
in whose names are not among the given ones. -/
def Extends (more : String → Value → Value → Prop) (names : List String)
    (r r' : Representation) : Prop :=
  Strewn (fun p q => q.1 = p.1 ∧ more p.1 p.2 q.2) (fun p => p.1 ∉ names) r r'

variable {more : String → Value → Value → Prop} {names : List String} {r r' : Representation}

/-- A name that is looked up means the same property, or one with more in it. -/
theorem Extends.get?_cases (h : Extends more names r r') {name : String} (hname : name ∈ names) :
    r'.get? name = r.get? name ∨
      ∃ v w, r.get? name = some v ∧ r'.get? name = some w ∧ more name v w := by
  unfold Extends at h
  induction h with
  | nil => exact .inl rfl
  | @keep p q ps qs h hrest ih =>
    obtain ⟨m, v⟩ := p
    obtain ⟨n, w⟩ := q
    obtain ⟨heq, hmore⟩ := h
    dsimp only at heq hmore
    subst heq
    by_cases hfirst : name = n
    · subst hfirst
      exact .inr ⟨v, w, by simp [Representation.get?], by simp [Representation.get?], hmore⟩
    · have hother : (name == n) = false := beq_false_of_ne hfirst
      simpa only [Representation.get?, List.lookup_cons, hother] using ih
  | @insert q ps qs h hrest ih =>
    obtain ⟨n, w⟩ := q
    have hother : (name == n) = false := beq_false_of_ne fun heq => h (heq ▸ hname)
    simpa only [Representation.get?, List.lookup_cons, hother] using ih

end Representation

namespace ResourceProperties

/-- The properties that the bits of a number tell, whatever other bits it has. -/
def ofBits (bits : Int64) : ResourceProperties := .truncate (bits.toBitVec.setWidth 8)

/-- Whether the second number is the first, which is not negative, with further bits that are not those
of a property. -/
def MoreBits (n n' : Int64) : Prop :=
  0 ≤ n.toInt ∧ ∃ others : Int64,
    others &&& Int64.ofNat (FlagFamily.known ResourceProperty).toNat = 0 ∧ n' = n ||| others

theorem toInt_eq_toNat {n : Int64} (h : 0 ≤ n.toInt) : n.toInt = n.toBitVec.toNat := by
  have hcond := BitVec.toInt_eq_toNat_cond n.toBitVec
  have hint : n.toInt = n.toBitVec.toInt := rfl
  have hlt := n.toBitVec.isLt
  split_ifs at hcond <;> omega

theorem ofBits_of_moreBits {n n' : Int64} (h : MoreBits n n') : ofBits n' = ofBits n := by
  obtain ⟨-, others, hothers, rfl⟩ := h
  have hknown : others.toBitVec.setWidth 8 &&& FlagFamily.known ResourceProperty = 0 := by
    have hbits := congrArg (fun m : Int64 => m.toBitVec.setWidth 8) hothers
    have hsetWidth : (Int64.ofNat (FlagFamily.known ResourceProperty).toNat).toBitVec.setWidth 8 =
      FlagFamily.known ResourceProperty := by decide
    have hzero : (0 : Int64).toBitVec.setWidth 8 = 0 := by decide
    simpa only [Int64.toBitVec_and, BitVec.setWidth_and, hsetWidth, hzero] using hbits
  simp only [ofBits, FlagSet.truncate, Int64.toBitVec_or, BitVec.setWidth_or]
  rw [BitVec.and_or_distrib_right, hknown]
  simp

/-- Further bits make a number no smaller, unless they make it negative. -/
theorem toInt_le_of_moreBits {n n' : Int64} (h : MoreBits n n') (hpos : 0 ≤ n'.toInt) :
    n.toInt ≤ n'.toInt := by
  obtain ⟨hn, others, -, rfl⟩ := h
  rw [toInt_eq_toNat hn, toInt_eq_toNat hpos, Int64.toBitVec_or, BitVec.toNat_or]
  exact Int.ofNat_le.mpr Nat.left_le_or

end ResourceProperties

namespace Resource

/-- The bits that the policy of a link tells. -/
def policyBits? (link : Representation) : Option Int64 :=
  (link.getObject? "p").bind (·.getInt? "bm")

/-- Whether the bits are those of a number of eight bits. -/
def IsOctet (bits : Int64) : Prop := 0 ≤ bits.toInt ∧ bits.toInt < 256

theorem propertiesOfLink_congr {link link' : Representation}
    (h : policyBits? link' = policyBits? link) : propertiesOfLink link' = propertiesOfLink link := by
  unfold policyBits? at h
  rw [propertiesOfLink, h, propertiesOfLink]

theorem propertiesOfLink_of_octet {link : Representation} {bits : Int64}
    (h : policyBits? link = some bits) (hoctet : IsOctet bits) :
    propertiesOfLink link = .ofBits bits := by
  unfold policyBits? at h
  have hnat : bits.toInt.toNat = bits.toBitVec.toNat := by
    rw [ResourceProperties.toInt_eq_toNat hoctet.1, Int.toNat_natCast]
  rw [propertiesOfLink, h]
  exact (if_pos hoctet).trans (by rw [hnat, ResourceProperties.ofBits, BitVec.ofNat_toNat])

theorem propertiesOfLink_of_not_octet {link : Representation} {bits : Int64}
    (h : policyBits? link = some bits) (hoctet : ¬IsOctet bits) :
    propertiesOfLink link = .empty := by
  unfold policyBits? at h
  rw [propertiesOfLink, h]
  exact if_neg hoctet

/-- The names that are looked up in a link. -/
def names : List String := ["href", "anchor", "rt", "if", "p", "eps"]

/-- Whether a value is the name of an interface. -/
def NamesInterface (v : Value) : Prop :=
  ∃ name i, v = .text name ∧ Interface.ofProtocolName? name = some i

/-- Whether an object tells an endpoint. -/
def TellsEndpoint (item : Representation) : Prop :=
  ∃ text e, item.getText? "ep" = some text ∧ Endpoint.parse text = .ok e

/-- A property of a policy, with further bits. -/
inductive MorePolicy (name : String) : Value → Value → Prop
  | same (v : Value) : MorePolicy name v v
  | bits {n n' : Int64} (hname : name = "bm") (h : ResourceProperties.MoreBits n n') :
      MorePolicy name (.int n) (.int n')

/-- A property of a link, with more in it. -/
inductive MoreValue (name : String) : Value → Value → Prop
  | same (v : Value) : MoreValue name v v
  | types {vs ws : List Value} (hname : name = "rt")
      (h : Strewn Eq (fun v => ∀ s, v ≠ .text s) vs ws) : MoreValue name (.array vs) (.array ws)
  | interfaces {vs ws : List Value} (hname : name = "if")
      (h : Strewn Eq (fun v => ¬NamesInterface v) vs ws) : MoreValue name (.array vs) (.array ws)
  | policy {ps qs : Representation} (hname : name = "p") (h : ps.Extends MorePolicy ["bm"] qs) :
      MoreValue name (.object ps) (.object qs)
  | endpoints {ms ns : List Representation} (hname : name = "eps")
      (h : Strewn (Representation.Extends (fun _ v w => w = v) ["ep"]) (¬TellsEndpoint ·) ms ns) :
      MoreValue name (.objects ms) (.objects ns)

/-- The link with more of everything. -/
def More (link link' : Representation) : Prop := link.Extends MoreValue names link'

namespace More

variable {link link' : Representation} (h : More link link')

include h

theorem getText?_eq {name : String} (hname : name ∈ names) :
    link'.getText? name = link.getText? name := by
  rcases h.get?_cases hname with heq | ⟨v, w, hv, hw, hmore⟩
  · simp only [Representation.getText?, heq]
  · simp only [Representation.getText?, hv, hw]
    cases hmore with
    | same => rfl
    | _ => rfl

theorem getTexts?_eq : link'.getTexts? "rt" = link.getTexts? "rt" := by
  rcases h.get?_cases (show "rt" ∈ names by decide) with heq | ⟨v, w, hv, hw, hmore⟩
  · simp only [Representation.getTexts?, Representation.getArray?, heq]
  · simp only [Representation.getTexts?, Representation.getArray?, hv, hw]
    cases hmore with
    | types hname hstrewn =>
      refine congrArg some (hstrewn.filterMap_eq (by rintro a _ rfl; rfl) fun v hv => ?_)
      cases v with
      | text s => exact absurd rfl (hv s)
      | _ => rfl
    | interfaces hname => simp at hname
    | _ => rfl

theorem interfaces_eq :
    Interfaces.ofProtocolNames ((link'.getTexts? "if").getD []) =
      Interfaces.ofProtocolNames ((link.getTexts? "if").getD []) := by
  rcases h.get?_cases (show "if" ∈ names by decide) with heq | ⟨v, w, hv, hw, hmore⟩
  · simp only [Representation.getTexts?, Representation.getArray?, heq]
  · simp only [Representation.getTexts?, Representation.getArray?, hv, hw]
    cases hmore with
    | interfaces hname hstrewn =>
      simp only [Option.map_some, Option.getD_some, Interfaces.ofProtocolNames,
        List.filterMap_filterMap]
      refine congrArg FlagSet.ofList
        (hstrewn.filterMap_eq (by rintro a _ rfl; rfl) fun v hv => ?_)
      cases v with
      | text s => exact Option.eq_none_iff_forall_ne_some.mpr fun i hi => hv ⟨s, i, rfl, hi⟩
      | _ => rfl
    | types hname => simp at hname
    | _ => rfl

theorem endpointsOfLink_eq : endpointsOfLink link' = endpointsOfLink link := by
  rcases h.get?_cases (show "eps" ∈ names by decide) with heq | ⟨v, w, hv, hw, hmore⟩
  · simp only [endpointsOfLink, Representation.getObjects?, heq]
  · simp only [endpointsOfLink, Representation.getObjects?, hv, hw]
    cases hmore with
    | endpoints hname hstrewn =>
      refine hstrewn.filterMap_eq (fun item item' hitem => ?_) fun item hitem => ?_
      · have hget : item'.get? "ep" = item.get? "ep" := by
          rcases hitem.get?_cases List.mem_cons_self with heq | ⟨v, _, hv, hw, rfl⟩
          · exact heq
          · rw [hv, hw]
        simp only [Representation.getText?, hget]
      · refine Option.eq_none_iff_forall_ne_some.mpr fun e he => hitem ?_
        obtain ⟨text, htext, he⟩ := Option.bind_eq_some_iff.mp he
        cases hparse : Endpoint.parse text with
        | ok e' => exact ⟨text, e', htext, hparse⟩
        | error _ => rw [hparse] at he; cases he
    | types hname => simp at hname
    | interfaces hname => simp at hname
    | _ => rfl

/-- The bits of the policy are those of the link, or further ones are set. -/
theorem policyBits?_cases :
    policyBits? link' = policyBits? link ∨
      ∃ n n', policyBits? link = some n ∧ policyBits? link' = some n' ∧
        ResourceProperties.MoreBits n n' := by
  rcases h.get?_cases (show "p" ∈ names by decide) with heq | ⟨v, w, hv, hw, hmore⟩
  · simp only [policyBits?, Representation.getObject?, heq, true_or]
  · simp only [policyBits?, Representation.getObject?, hv, hw]
    cases hmore with
    | policy hname hpolicy =>
      simp only [Option.bind_some, Representation.getInt?]
      rcases hpolicy.get?_cases List.mem_cons_self with heq | ⟨v, w, hv, hw, hmore⟩
      · exact .inl (by rw [heq])
      · cases hmore with
        | same => exact .inl (by rw [hv, hw])
        | bits hname hbits => exact .inr ⟨_, _, by rw [hv], by rw [hw], hbits⟩
    | _ => exact .inl rfl

end More

/-- With more of everything the resource is the same, but for the properties. -/
theorem ofLink?_of_more {link link' : Representation} (h : More link link') :
    ofLink? link' =
      (ofLink? link).map fun r => { r with properties := propertiesOfLink link' } := by
  unfold ofLink?
  rw [h.getText?_eq (show "href" ∈ names by decide), h.getText?_eq (show "anchor" ∈ names by decide),
    h.getTexts?_eq, h.interfaces_eq, h.endpointsOfLink_eq]
  cases link.getText? "href" with
  | none => rfl
  | some uri =>
    simp only [Option.bind_eq_bind, Option.bind_some]
    split <;> rfl

theorem properties_of_ofLink? {link : Representation} {r : Resource} (h : ofLink? link = some r) :
    r.properties = propertiesOfLink link := by
  obtain ⟨uri, -, h⟩ := Option.bind_eq_some_iff.mp h
  dsimp only at h
  split_ifs at h
  cases h
  rfl

theorem propertiesOfLink_eq_ofBits_iff {link : Representation} {bits : Int64}
    (h : policyBits? link = some bits) :
    propertiesOfLink link = .ofBits bits ↔ IsOctet bits ∨ ResourceProperties.ofBits bits = .empty := by
  by_cases hoctet : IsOctet bits
  · simp only [propertiesOfLink_of_octet h hoctet, hoctet, true_or]
  · rw [propertiesOfLink_of_not_octet h hoctet, eq_comm]
    simp only [hoctet, false_or]

/-- Further bits leave the properties as they are when the number still has eight bits. Otherwise they
hide what properties there are. -/
theorem propertiesOfLink_of_more_iff {link link' : Representation} (h : More link link') :
    propertiesOfLink link' = propertiesOfLink link ↔
      propertiesOfLink link = .empty ∨ ∀ bits, policyBits? link' = some bits → IsOctet bits := by
  rcases h.policyBits?_cases with heq | ⟨n, n', hn, hn', hbits⟩
  · rw [propertiesOfLink_congr heq]
    refine iff_of_true rfl ?_
    by_cases hoctet : ∀ bits, policyBits? link' = some bits → IsOctet bits
    · exact .inr hoctet
    · push Not at hoctet
      obtain ⟨bits, hbits, hoctet⟩ := hoctet
      exact .inl (propertiesOfLink_of_not_octet (heq ▸ hbits) hoctet)
  · by_cases hoctet : IsOctet n'
    · have hle := ResourceProperties.toInt_le_of_moreBits hbits hoctet.1
      have hoctet' : IsOctet n := ⟨hbits.1, Int.lt_of_le_of_lt hle hoctet.2⟩
      rw [propertiesOfLink_of_octet hn' hoctet, propertiesOfLink_of_octet hn hoctet',
        ResourceProperties.ofBits_of_moreBits hbits]
      refine iff_of_true rfl (.inr fun bits heq => ?_)
      rw [hn', Option.some_inj] at heq
      exact heq ▸ hoctet
    · have hnot : ¬∀ bits, policyBits? link' = some bits → IsOctet bits := fun hall =>
        hoctet (hall n' hn')
      rw [propertiesOfLink_of_not_octet hn' hoctet, or_iff_left hnot, eq_comm]

/-- A resource that is found is found in every link that has more in it, and all that is told of it is
the same but for its properties. They are the same too exactly when there are none or the bits of the
policy are still those of a number of eight bits. So the properties are the known ones among the bits
exactly when the number has eight bits or there are none among them. -/
theorem ofLink?_more_iff {link : Representation} {r : Resource} (h : ofLink? link = some r) :
    (∀ link', More link link' →
      ofLink? link' = some { r with properties := propertiesOfLink link' } ∧
      (ofLink? link' = some r ↔
        r.properties = .empty ∨ ∀ bits, policyBits? link' = some bits → IsOctet bits)) ∧
    ∀ bits, policyBits? link = some bits →
      (r.properties = .ofBits bits ↔ IsOctet bits ∨ ResourceProperties.ofBits bits = .empty) := by
  have hproperties := properties_of_ofLink? h
  refine ⟨fun link' hmore => ?_, fun bits hbits => ?_⟩
  · have hfound := ofLink?_of_more hmore
    rw [h, Option.map_some] at hfound
    refine ⟨hfound, ?_⟩
    rw [hfound, hproperties, ← propertiesOfLink_of_more_iff hmore, ← hproperties, Option.some_inj]
    constructor
    · intro heq
      exact congrArg Resource.properties heq
    · intro heq
      rw [heq]
  · rw [hproperties]
    exact propertiesOfLink_eq_ofBits_iff hbits

/-- The lamp with a policy, after some properties, interfaces and endpoints of its own. -/
def lampLink (own : Representation) (interfaces : List Value) (bits : Int64)
    (endpoints : List Representation) : Representation :=
  ("href", .text "/l") :: own ++
    [("if", .array (.text "oic.if.rw" :: interfaces)), ("p", .object [("bm", .int bits)]),
      ("eps", .objects (endpoints ++ [[("ep", .text "coap://1.2.3.4:5")]]))]

theorem more_lampLink {bits others : Int64} (hpos : 0 ≤ bits.toInt)
    (hothers : others &&& Int64.ofNat (FlagFamily.known ResourceProperty).toNat = 0)
    {own : Representation} (hown : ∀ p ∈ own, p.1 ∉ names) {interfaces : List Value}
    (hinterfaces : ∀ v ∈ interfaces, ¬NamesInterface v) {endpoints : List Representation}
    (hendpoints : ∀ item ∈ endpoints, ¬TellsEndpoint item) :
    More (lampLink [] [] bits []) (lampLink own interfaces (bits ||| others) endpoints) := by
  have hnames : Strewn Eq (¬NamesInterface ·) [] interfaces := by
    simpa using Strewn.inserts hinterfaces .nil
  have hitems : Strewn (Representation.Extends (fun _ v w => w = v) ["ep"]) (¬TellsEndpoint ·)
      [[("ep", .text "coap://1.2.3.4:5")]] (endpoints ++ [[("ep", .text "coap://1.2.3.4:5")]]) :=
    .inserts hendpoints (.keep (.keep ⟨rfl, rfl⟩ .nil) .nil)
  have hpolicy : Representation.Extends MorePolicy ["bm"] [("bm", .int bits)]
      [("bm", .int (bits ||| others))] :=
    .keep ⟨rfl, .bits rfl ⟨hpos, others, hothers, rfl⟩⟩ .nil
  exact .keep ⟨rfl, .same _⟩ <| .inserts hown <| .keep ⟨rfl, .interfaces rfl (.keep rfl hnames)⟩ <|
    .keep ⟨rfl, .policy rfl hpolicy⟩ <| .keep ⟨rfl, .endpoints rfl hitems⟩ .nil

/-- Later additions and a bit without a meaning leave the lamp as it is. -/
theorem ofLink?_more_iff_lamp :
    (ofLink? (lampLink [] [] 3 [])).isSome = true ∧
      More (lampLink [] [] 3 []) (lampLink [("vnd", .bool true)] [.text "vnd.if", .int 7] 7 [[]]) ∧
      ofLink? (lampLink [("vnd", .bool true)] [.text "vnd.if", .int 7] 7 [[]]) =
        ofLink? (lampLink [] [] 3 []) := by
  have hsome : (ofLink? (lampLink [] [] 3 [])).isSome = true := by decide +kernel
  have hmore : More (lampLink [] [] 3 [])
      (lampLink [("vnd", .bool true)] [.text "vnd.if", .int 7] 7 [[]]) := by
    change More _ (lampLink _ _ (3 ||| 4) _)
    refine more_lampLink (by decide) (by decide) (by decide) ?_ ?_
    · rintro v hv ⟨name, i, rfl, hi⟩
      obtain rfl : name = "vnd.if" := by simpa using hv
      cases hi
    · rintro item hitem ⟨text, e, htext, -⟩
      obtain rfl := List.mem_singleton.mp hitem
      cases htext
  obtain ⟨r, hr⟩ := Option.isSome_iff_exists.mp hsome
  refine ⟨hsome, hmore, ?_⟩
  rw [hr, ((ofLink?_more_iff hr).1 _ hmore).2]
  refine .inr fun bits hbits => ?_
  obtain rfl : (7 : Int64) = bits := Option.some.inj hbits
  exact ⟨by decide, by decide⟩

/-- One of the bits beyond the lowest eight hides the properties that the others tell. -/
theorem ofLink?_ninth_bit :
    More (lampLink [] [] 3 []) (lampLink [] [] 259 []) ∧
      (ofLink? (lampLink [] [] 3 [])).map properties = some (.ofList [.discoverable, .observable]) ∧
      ResourceProperties.ofBits 259 = .ofList [.discoverable, .observable] ∧
      (ofLink? (lampLink [] [] 259 [])).map properties = some .empty := by
  have hmore : More (lampLink [] [] 3 []) (lampLink [] [] (3 ||| 256) []) :=
    more_lampLink (by decide) (by decide) (by simp) (by simp) (by simp)
  exact ⟨hmore, by decide +kernel, by decide +kernel, by decide +kernel⟩

end Resource

end DeviceClient
