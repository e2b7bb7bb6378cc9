import DeviceClient.Address.Ipv6
import DeviceClient.Proofs.Address.Ipv4

namespace DeviceClient

namespace Ipv6Address

open Numeral

theorem hexDigit?_digitChar : ∀ d < 16, hexDigit? d.digitChar = some d := by
  decide

theorem readGroup_groupChars (g : UInt16) {rest : List Char} (hrest : Stops hexDigit? rest) :
    readGroup (groupChars g ++ rest) = some (g, rest) := by
  obtain ⟨d, ds, hrun, hds⟩ := run_toDigits (by decide) hexDigit?_digitChar g.toNat hrest
  have hlt : g.toNat < 2 ^ 16 := g.toNat_lt
  have hshort : ¬4 < ds.length + 1 := by
    have hlength := hds.length_le (k := 4) (by decide) (by decide) (by omega)
    rw [List.length_cons] at hlength
    omega
  have hrun' : run hexDigit? (groupChars g ++ rest) = (d :: ds, rest) := hrun
  simp only [readGroup, hrun', hds.value, List.isEmpty_cons, List.length_cons, Bool.false_or,
    decide_eq_true_eq, if_neg hshort, UInt16.ofNat_toNat]

theorem readGroup_of_stops {cs : List Char} (h : Stops hexDigit? cs) : readGroup cs = none := by
  simp [readGroup, run_of_stops h]

theorem mem_groupChars {g : UInt16} {c : Char} (h : c ∈ groupChars g) :
    ∃ d < 16, c = d.digitChar :=
  exists_digit_of_mem (by decide) h

/-- The groups with a colon in front of each. -/
def tailChars (gs : List UInt16) : List Char := gs.flatMap fun g => ':' :: groupChars g

theorem groupsChars_cons (g : UInt16) (gs : List UInt16) :
    groupsChars (g :: gs) = groupChars g ++ tailChars gs := by
  induction gs generalizing g with
  | nil => simp [groupsChars, tailChars]
  | cons g' gs ih =>
    rw [groupsChars, ih]
    · rfl
    · nofun

theorem mem_groupsChars {gs : List UInt16} {c : Char} (h : c ∈ groupsChars gs) :
    c = ':' ∨ ∃ d < 16, c = d.digitChar := by
  cases gs with
  | nil => cases h
  | cons g gs =>
    rw [groupsChars_cons, List.mem_append, tailChars, List.mem_flatMap] at h
    rcases h with h | ⟨g', -, h⟩
    · exact .inr (mem_groupChars h)
    · rcases List.mem_cons.mp h with rfl | h
      · exact .inl rfl
      · exact .inr (mem_groupChars h)

theorem dot_not_mem_groupsChars (gs : List UInt16) : '.' ∉ groupsChars gs := by
  intro h
  rcases mem_groupsChars h with h | ⟨d, hd, h⟩
  · cases h
  · revert d
    decide

/-- No group follows: the text is over, or it goes on with a double colon. -/
def NoGroup (rest : List Char) : Prop := rest = [] ∨ ∃ t, rest = ':' :: ':' :: t

theorem stops_colon (cs : List Char) : Stops hexDigit? (':' :: cs) := stops_cons.mpr (by decide)

theorem NoGroup.stops {rest : List Char} (h : NoGroup rest) : Stops hexDigit? rest := by
  rcases h with rfl | ⟨t, rfl⟩
  · exact stops_nil hexDigit?
  · exact stops_colon _

/-- What stands behind the colon, where one has to be passed, is no group either. -/
theorem NoGroup.of_passColon {rest body : List Char} (h : NoGroup rest) {first : Bool}
    (hpass : passColon first rest = some body) : body = [] ∨ ∃ t, body = ':' :: t := by
  rcases h with rfl | ⟨t, rfl⟩
  · cases first with
    | true => exact .inl (Option.some.inj hpass).symm
    | false => cases hpass
  · cases first with
    | true => exact .inr ⟨':' :: t, (Option.some.inj hpass).symm⟩
    | false => exact .inr ⟨t, (Option.some.inj hpass).symm⟩

theorem readGroups_of_noGroup (slots : Nat) (first : Bool) {rest : List Char} (h : NoGroup rest) :
    readGroups slots first rest = ⟨[], false, rest⟩ := by
  cases slots with
  | zero => rfl
  | succ slots =>
    cases hpass : passColon first rest with
    | none => simp [readGroups, hpass]
    | some body =>
      have hdecimal : Stops digit? body := by
        rcases h.of_passColon hpass with rfl | ⟨t, rfl⟩
        · exact stops_nil digit?
        · exact stops_cons.mpr (by decide)
      have hhex : Stops hexDigit? body := by
        rcases h.of_passColon hpass with rfl | ⟨t, rfl⟩
        · exact stops_nil hexDigit?
        · exact stops_colon t
      simp [readGroups, hpass, Ipv4Address.read_of_stops hdecimal, readGroup_of_stops hhex]

theorem readGroups_step {slots : Nat} {first : Bool} {cs body rest : List Char} {g : UInt16}
    (hpass : passColon first cs = some body) (hdotted : Ipv4Address.read body = none)
    (hread : readGroup body = some (g, rest)) :
    readGroups (slots + 1) first cs =
      ⟨g :: (readGroups slots false rest).groups, (readGroups slots false rest).dotted,
        (readGroups slots false rest).rest⟩ := by
  simp [readGroups, hpass, hdotted, hread]

theorem stops_tailChars {gs : List UInt16} {rest : List Char} (hrest : NoGroup rest) :
    Stops hexDigit? (tailChars gs ++ rest) := by
  cases gs with
  | nil => exact hrest.stops
  | cons g gs => exact stops_colon _

theorem readGroups_tailChars {gs : List UInt16} {slots : Nat} (hslots : gs.length ≤ slots)
    {rest : List Char} (hrest : NoGroup rest) (hdot : '.' ∉ tailChars gs ++ rest) :
    readGroups slots false (tailChars gs ++ rest) = ⟨gs, false, rest⟩ := by
  induction gs generalizing slots with
  | nil => exact readGroups_of_noGroup slots false hrest
  | cons g gs ih =>
    obtain ⟨n, rfl⟩ := Nat.exists_eq_add_one.mpr (Nat.lt_of_lt_of_le (Nat.succ_pos _) hslots)
    have hchars : tailChars (g :: gs) ++ rest = ':' :: (groupChars g ++ (tailChars gs ++ rest)) := by
      simp [tailChars]
    rw [hchars] at hdot ⊢
    have hbody : '.' ∉ groupChars g ++ (tailChars gs ++ rest) :=
      fun h => hdot (List.mem_cons_of_mem _ h)
    have htail := ih (Nat.le_of_succ_le_succ hslots) fun h =>
      hbody (List.mem_append_right (groupChars g) h)
    have hpass : passColon false (':' :: (groupChars g ++ (tailChars gs ++ rest))) =
        some (groupChars g ++ (tailChars gs ++ rest)) :=
      Split.expect_cons ':' _
    rw [readGroups_step hpass (Ipv4Address.read_eq_none hbody)
      (readGroup_groupChars g (stops_tailChars hrest)), htail]

theorem readGroups_groupsChars {gs : List UInt16} {slots : Nat} (hslots : gs.length ≤ slots)
    {rest : List Char} (hrest : NoGroup rest) (hdot : '.' ∉ groupsChars gs ++ rest) :
    readGroups slots true (groupsChars gs ++ rest) = ⟨gs, false, rest⟩ := by
  cases gs with
  | nil => exact readGroups_of_noGroup slots true hrest
  | cons g gs =>
    obtain ⟨n, rfl⟩ := Nat.exists_eq_add_one.mpr (Nat.lt_of_lt_of_le (Nat.succ_pos _) hslots)
    rw [groupsChars_cons, List.append_assoc] at hdot ⊢
    have htail := readGroups_tailChars (Nat.le_of_succ_le_succ hslots) hrest fun h =>
      hdot (List.mem_append_right (groupChars g) h)
    rw [readGroups_step rfl (Ipv4Address.read_eq_none hdot)
      (readGroup_groupChars g (stops_tailChars hrest)), htail]

theorem readGroups_all {gs : List UInt16} {slots : Nat} (hslots : gs.length ≤ slots) :
    readGroups slots true (groupsChars gs) = ⟨gs, false, []⟩ := by
  have hnone : NoGroup [] := .inl rfl
  have hdot : '.' ∉ groupsChars gs ++ [] := by
    rw [List.append_nil]
    exact dot_not_mem_groupsChars gs
  have hgroups := readGroups_groupsChars hslots hnone hdot
  rwa [List.append_nil] at hgroups

theorem longestZeroRun_spec (gs : List UInt16) :
    (longestZeroRun gs).2 = 0 ∨ (longestZeroRun gs).2 = zeroRunAt gs (longestZeroRun gs).1 := by
  unfold longestZeroRun
  refine List.foldlRecOn (motive := fun best : Nat × Nat => best.2 = 0 ∨ best.2 = zeroRunAt gs best.1)
    (List.range gs.length) _ (Or.inl rfl) fun best hbest place _ => ?_
  by_cases hlonger : best.2 < zeroRunAt gs place
  · rw [if_pos hlonger]
    exact .inr rfl
  · rw [if_neg hlonger]
    exact hbest

/-- The groups in front of the run, the zero groups of it, and those behind it are all the groups. -/
theorem groups_of_longestZeroRun {gs : List UInt16} {place length : Nat}
    (hrun : longestZeroRun gs = (place, length)) (hlength : 0 < length) :
    gs = gs.take place ++ List.replicate length 0 ++ gs.drop (place + length) := by
  have hspec := longestZeroRun_spec gs
  rw [hrun] at hspec
  have hzeros : length = ((gs.drop place).takeWhile (· == 0)).length := by
    rcases hspec with h | h
    · exact absurd h (Nat.ne_of_gt hlength)
    · exact h
  have htake : (gs.drop place).take length = (gs.drop place).takeWhile (· == 0) := by
    rw [hzeros]
    exact (List.prefix_iff_eq_take.mp (List.takeWhile_prefix _)).symm
  have hreplicate : (gs.drop place).takeWhile (· == 0) = List.replicate length 0 := by
    refine List.eq_replicate_iff.mpr ⟨hzeros.symm, fun g hg => ?_⟩
    simpa using List.all_eq_true.mp List.all_takeWhile g hg
  calc
    gs = gs.take place ++ gs.drop place := (List.take_append_drop place gs).symm
    _ = gs.take place ++ (List.replicate length 0 ++ gs.drop (place + length)) := by
      rw [← hreplicate, ← htake, ← List.drop_drop, List.take_append_drop length (gs.drop place)]
    _ = _ := (List.append_assoc _ _ _).symm

theorem ofGroups?_groups (x : Ipv6Address) : ofGroups? x.groups = some x := by
  rw [ofGroups?, dif_pos x.length_groups]

/-- In full, with eight groups. -/
theorem read_full (x : Ipv6Address) : read (groupsChars x.groups) = some (x, []) := by
  have hlength : x.groups.length = 8 := x.length_groups
  have hgroups := readGroups_all (Nat.le_of_eq hlength)
  simp [read, hgroups, hlength, ofGroups?_groups]

/-- With a double colon in place of a run of zero groups. -/
theorem read_compressed {x : Ipv6Address} {front back : List UInt16} {zeros : Nat}
    (hzeros : 0 < zeros) (hx : x.groups = front ++ List.replicate zeros 0 ++ back) :
    read (groupsChars front ++ "::".toList ++ groupsChars back) = some (x, []) := by
  have hlength : front.length + zeros + back.length = 8 := by
    have hx8 := x.length_groups
    rw [hx] at hx8
    simpa [Nat.add_assoc] using hx8
  have hcolons : NoGroup (':' :: ':' :: groupsChars back) := .inr ⟨_, rfl⟩
  have hfrontdot : '.' ∉ groupsChars front ++ ':' :: ':' :: groupsChars back := by
    simp [dot_not_mem_groupsChars]
  have hfrontslots : front.length ≤ 8 := by omega
  have hbackslots : back.length ≤ 7 - front.length := by omega
  have hfront := readGroups_groupsChars hfrontslots hcolons hfrontdot
  have hback := readGroups_all hbackslots
  have hfew : front.length ≠ 8 := by omega
  have hrest : 8 - front.length - back.length = zeros := by omega
  have hgroups : ofGroups? (front ++ (List.replicate zeros 0 ++ back)) = some x := by
    rw [← List.append_assoc, ← hx, ofGroups?_groups]
  simp [read, hfront, hback, hfew, hrest, hgroups]

theorem joinBytes_halves (g : UInt16) :
    joinBytes (UInt8.ofNat (g.toNat / 256)) (UInt8.ofNat g.toNat) = g := by
  apply UInt16.toNat.inj
  have hlt := g.toNat_lt
  simp only [joinBytes, UInt8.toNat_ofNat', UInt16.toNat_ofNat']
  omega

theorem groups_of_mapped? {x : Ipv6Address} {inner : Ipv4Address} (h : x.mapped? = some inner) :
    x.groups =
      [0, 0, 0, 0, 0, 0xffff, joinBytes inner.a inner.b, joinBytes inner.c inner.d] := by
  rw [mapped?] at h
  split at h
  · rename_i g₁ g₂ hgroups
    cases h
    rw [hgroups, joinBytes_halves, joinBytes_halves]
  · cases h

theorem readGroups_dotted {slots : Nat} (hslots : 0 < slots) (inner : Ipv4Address) :
    readGroups (slots + 1) false (':' :: inner.chars) =
      ⟨[joinBytes inner.a inner.b, joinBytes inner.c inner.d], true, []⟩ := by
  have hread := Ipv4Address.read_chars inner (stops_nil digit?)
  rw [List.append_nil] at hread
  simp [readGroups, hslots, passColon, hread]

/-- With the last two groups as four octets. -/
theorem read_mapped {x : Ipv6Address} {inner : Ipv4Address} (h : x.mapped? = some inner) :
    read ("::ffff:".toList ++ inner.chars) = some (x, []) := by
  have hchars : "::ffff:".toList ++ inner.chars =
      ':' :: ':' :: (groupChars 0xffff ++ ':' :: inner.chars) := rfl
  have hcolons : NoGroup ("::ffff:".toList ++ inner.chars) := .inr ⟨_, hchars⟩
  have hfront := readGroups_of_noGroup 8 true hcolons
  have hdecimal : Stops digit? (groupChars 0xffff ++ ':' :: inner.chars) :=
    stops_cons.mpr (by decide)
  have hback : readGroups 7 true (groupChars 0xffff ++ ':' :: inner.chars) =
      ⟨[0xffff, joinBytes inner.a inner.b, joinBytes inner.c inner.d], true, []⟩ := by
    rw [readGroups_step rfl (Ipv4Address.read_of_stops hdecimal)
      (readGroup_groupChars 0xffff (stops_colon _)), readGroups_dotted (by decide)]
  have hgroups := ofGroups?_groups x
  rw [groups_of_mapped? h] at hgroups
  simp only [read, hfront]
  rw [hchars]
  simp [hback, hgroups]

inductive Shape (x : Ipv6Address) : List Char → Prop
  /-- The last two groups are written as four octets. -/
  | mapped {inner : Ipv4Address} (h : x.mapped? = some inner) :
      Shape x ("::ffff:".toList ++ inner.chars)
  /-- A double colon stands for some zero groups. -/
  | compressed {front back : List UInt16} {zeros : Nat} (hzeros : 0 < zeros)
      (hx : x.groups = front ++ List.replicate zeros 0 ++ back) :
      Shape x (groupsChars front ++ "::".toList ++ groupsChars back)
  | full : Shape x (groupsChars x.groups)

theorem shape_chars (x : Ipv6Address) : Shape x x.chars := by
  rw [chars]
  cases hmapped : x.mapped? with
  | some inner => exact .mapped hmapped
  | none =>
    rcases hrun : longestZeroRun x.groups with ⟨place, length⟩
    by_cases hlong : 1 < length
    · have hzeros : 0 < length := Nat.lt_of_succ_lt hlong
      simp only [if_pos hlong]
      exact .compressed hzeros (groups_of_longestZeroRun hrun hzeros)
    · simp only [if_neg hlong]
      exact .full

/-- Addresses are read back from their text. -/
theorem ofChars?_chars (x : Ipv6Address) : ofChars? x.chars = some x := by
  have hread : read x.chars = some (x, []) := by
    have hshape := shape_chars x
    generalize x.chars = cs at hshape
    cases hshape with
    | mapped h => exact read_mapped h
    | compressed hzeros hx => exact read_compressed hzeros hx
    | full => exact read_full x
  rw [ofChars?, hread]

/-- There is nothing but hexadecimal digits, colons and dots in the text. -/
theorem mem_chars {x : Ipv6Address} {c : Char} (h : c ∈ x.chars) :
    c = ':' ∨ c = '.' ∨ ∃ d < 16, c = d.digitChar := by
  have hgroups {gs : List UInt16} (h : c ∈ groupsChars gs) :
      c = ':' ∨ c = '.' ∨ ∃ d < 16, c = d.digitChar :=
    (mem_groupsChars h).imp_right .inr
  have hshape := shape_chars x
  generalize x.chars = cs at hshape h
  cases hshape with
  | mapped =>
    have hfront : "::ffff:".toList = [':', ':', 'f', 'f', 'f', 'f', ':'] := rfl
    rcases List.mem_append.mp h with h | h
    · have hc : c = ':' ∨ c = 'f' := by
        simp only [hfront, List.mem_cons, List.not_mem_nil, or_false] at h
        grind
      exact hc.imp_right fun hf => .inr ⟨15, by decide, hf⟩
    · rcases Ipv4Address.mem_chars h with rfl | ⟨d, hd, rfl⟩
      · exact .inr (.inl rfl)
      · exact .inr (.inr ⟨d, Nat.lt_trans hd (by decide), rfl⟩)
  | compressed =>
    rcases List.mem_append.mp h with h | h
    · rcases List.mem_append.mp h with h | h
      · exact hgroups h
      · have hcolons : "::".toList = [':', ':'] := rfl
        simp only [hcolons, List.mem_cons, List.not_mem_nil, or_false, or_self] at h
        exact .inl h
    · exact hgroups h
  | full => exact hgroups h

theorem not_mem_chars (x : Ipv6Address) {c : Char} (hcolon : c ≠ ':') (hdot : c ≠ '.')
    (hdigit : ∀ d < 16, c ≠ d.digitChar) : c ∉ x.chars := by
  intro h
  rcases mem_chars h with heq | heq | ⟨d, hd, heq⟩
  · exact hcolon heq
  · exact hdot heq
  · exact hdigit d hd heq

end Ipv6Address

end DeviceClient
