import Mathlib.Data.Nat.Digits.Defs
import DeviceClient.Text.Numeral

namespace DeviceClient.Numeral

/-- What follows does not go on with a digit. -/
def Stops (digit? : Char → Option Nat) (rest : List Char) : Prop :=
  ∀ c ∈ rest.head?, digit? c = none

theorem stops_nil (digit? : Char → Option Nat) : Stops digit? [] := nofun

theorem stops_cons {digit? : Char → Option Nat} {c : Char} {rest : List Char} :
    Stops digit? (c :: rest) ↔ digit? c = none := by
  simp [Stops]

theorem run_of_stops {digit? : Char → Option Nat} {rest : List Char} (h : Stops digit? rest) :
    run digit? rest = ([], rest) := by
  cases rest with
  | nil => rfl
  | cons c rest => rw [run, stops_cons.mp h]

theorem run_append {digit? : Char → Option Nat} {ds : List Nat} {rest : List Char}
    (hds : ∀ d ∈ ds, digit? d.digitChar = some d) (hrest : Stops digit? rest) :
    run digit? (ds.map Nat.digitChar ++ rest) = (ds, rest) := by
  induction ds with
  | nil => exact run_of_stops hrest
  | cons d ds ih =>
    have hd := hds d List.mem_cons_self
    have htail := ih fun d' h => hds d' (List.mem_cons_of_mem d h)
    rw [List.map_cons, List.cons_append, run, hd]
    simp only [htail]

theorem run_suffix (digit? : Char → Option Nat) (cs : List Char) : (run digit? cs).2 <:+ cs := by
  induction cs with
  | nil => exact List.suffix_rfl
  | cons c cs ih =>
    rw [run]
    cases digit? c with
    | none => exact List.suffix_rfl
    | some d => exact ih.trans (List.suffix_cons c cs)

/-- The digits of a number in a base. -/
structure Spells (base n : Nat) (ds : List Nat) : Prop where
  chars : Nat.toDigits base n = ds.map Nat.digitChar
  lt : ∀ d ∈ ds, d < base
  value : value base ds = n
  leading : ∀ more, ds = 0 :: more → more = []

section

variable {base : Nat} (hbase : 1 < base)

include hbase

theorem exists_spells (n : Nat) : ∃ ds, Spells base n ds := by
  induction n using Nat.strong_induction_on with
  | h n ih =>
    by_cases hn : n < base
    · refine ⟨[n], Nat.toDigits_of_lt_base hn, by simpa using hn, by simp [value], ?_⟩
      rintro more ⟨⟩
      rfl
    · obtain ⟨ds, hchars, hlt, hvalue, hleading⟩ := ih (n / base) (Nat.div_lt_self (by omega) hbase)
      refine ⟨ds ++ [n % base], ?_, ?_, ?_, fun more hmore => ?_⟩
      · rw [Nat.toDigits_of_base_le hbase (Nat.le_of_not_lt hn), hchars, List.map_append]
        rfl
      · intro d hd
        rcases List.mem_append.mp hd with h | h
        · exact hlt d h
        · rw [List.mem_singleton.mp h]
          exact Nat.mod_lt n (Nat.lt_trans Nat.zero_lt_one hbase)
      · have hdiv := Nat.div_add_mod n base
        rw [← hvalue] at hdiv
        simpa [Numeral.value] using hdiv
      · -- A zero in front would be the only digit of the quotient, which is not zero.
        cases ds with
        | nil => exact absurd hchars Nat.toDigits_ne_nil
        | cons d ds =>
          obtain ⟨rfl, rfl⟩ := List.cons.inj hmore
          rw [hleading ds rfl] at hvalue
          have hpos := Nat.div_pos (Nat.le_of_not_lt hn) (Nat.lt_trans Nat.zero_lt_one hbase)
          simp [Numeral.value] at hvalue
          omega

theorem exists_digit_of_mem {n : Nat} {c : Char} (h : c ∈ Nat.toDigits base n) :
    ∃ d < base, c = d.digitChar := by
  obtain ⟨ds, hds⟩ := exists_spells hbase n
  rw [hds.chars] at h
  obtain ⟨d, hd, rfl⟩ := List.mem_map.mp h
  exact ⟨d, hds.lt d hd, rfl⟩

theorem run_toDigits {digit? : Char → Option Nat} (hdigit : ∀ d < base, digit? d.digitChar = some d)
    (n : Nat) {rest : List Char} (hrest : Stops digit? rest) :
    ∃ d ds, run digit? (Nat.toDigits base n ++ rest) = (d :: ds, rest) ∧ Spells base n (d :: ds) := by
  obtain ⟨ds, hds⟩ := exists_spells hbase n
  cases ds with
  | nil => exact absurd hds.chars Nat.toDigits_ne_nil
  | cons d ds =>
    refine ⟨d, ds, ?_, hds⟩
    rw [hds.chars]
    exact run_append (fun d' h => hdigit d' (hds.lt d' h)) hrest

end

theorem Spells.length_le {base n k : Nat} {ds : List Nat} (h : Spells base n ds) (hbase : 1 < base)
    (hk : 0 < k) (hn : n < base ^ k) : ds.length ≤ k := by
  have hlength := (Nat.length_toDigits_le_iff hbase hk).mpr hn
  rwa [h.chars, List.length_map] at hlength

theorem digit?_digitChar : ∀ d < 10, digit? d.digitChar = some d := by
  decide

theorem mem_decimal {n : Nat} {c : Char} (h : c ∈ decimal n) : ∃ d < 10, c = d.digitChar :=
  exists_digit_of_mem (by decide) h

theorem not_mem_decimal (n : Nat) {c : Char} (h : ∀ d < 10, c ≠ d.digitChar) : c ∉ decimal n := by
  intro hmem
  obtain ⟨d, hd, heq⟩ := mem_decimal hmem
  exact h d hd heq

theorem run_decimal (n : Nat) {rest : List Char} (hrest : Stops digit? rest) :
    ∃ d ds, run digit? (decimal n ++ rest) = (d :: ds, rest) ∧ Spells 10 n (d :: ds) :=
  run_toDigits (by decide) digit?_digitChar n hrest

theorem digitChar_ne_plus : ∀ d < 10, Nat.digitChar d ≠ '+' := by
  decide

theorem toUInt16?_decimal (n : UInt16) : toUInt16? (decimal n.toNat) = some n := by
  obtain ⟨d, ds, hrun, hds⟩ := run_decimal n.toNat (stops_nil digit?)
  have hplus : d.digitChar ≠ '+' := digitChar_ne_plus d (hds.lt d List.mem_cons_self)
  have hlt : n.toNat < 2 ^ 16 := n.toNat_lt
  rw [List.append_nil] at hrun
  have hchars : decimal n.toNat = d.digitChar :: ds.map Nat.digitChar := hds.chars
  rw [hchars] at hrun ⊢
  simp only [toUInt16?, List.cons.injEq, hplus, false_and, imp_self, implies_true, hrun, hds.value,
    if_pos hlt, UInt16.ofNat_toNat]

end DeviceClient.Numeral
