import DeviceClient.Address.Ipv4
import DeviceClient.Proofs.Text.Numeral
import DeviceClient.Proofs.Text.Split

namespace DeviceClient

namespace Ipv4Address

open Numeral

theorem readOctet_decimal (b : UInt8) {rest : List Char} (hrest : Stops digit? rest) :
    readOctet (decimal b.toNat ++ rest) = some (b, rest) := by
  obtain ⟨d, ds, hrun, hds⟩ := run_decimal b.toNat hrest
  have hlt : b.toNat < 256 := b.toNat_lt
  have hshort : ¬2 < ds.length := by
    have hlength := hds.length_le (k := 3) (by decide) (by decide) (by omega)
    rw [List.length_cons] at hlength
    omega
  have hleading : (d == 0 && !ds.isEmpty) = false := by
    cases d with
    | zero => simp [hds.leading ds rfl]
    | succ d => rfl
  have hsmall : ¬255 < b.toNat := by omega
  simp [readOctet, hrun, hds.value, hshort, hleading, hsmall]

theorem readOctet_suffix {cs rest : List Char} {b : UInt8} (h : readOctet cs = some (b, rest)) :
    rest <:+ cs := by
  have hsuffix := run_suffix digit? cs
  rw [readOctet] at h
  split at h
  · cases h
  · rename_i hrun
    rw [hrun] at hsuffix
    dsimp only at h
    split at h
    · cases h
    · cases h
      exact hsuffix

theorem stops_dot (rest : List Char) : Stops digit? ('.' :: rest) :=
  stops_cons.mpr (by decide)

theorem read_chars (x : Ipv4Address) {rest : List Char} (hrest : Stops digit? rest) :
    read (x.chars ++ rest) = some (x, rest) := by
  have ha := readOctet_decimal x.a (stops_dot (decimal x.b.toNat ++
    '.' :: (decimal x.c.toNat ++ '.' :: (decimal x.d.toNat ++ rest))))
  have hb := readOctet_decimal x.b (stops_dot (decimal x.c.toNat ++
    '.' :: (decimal x.d.toNat ++ rest)))
  have hc := readOctet_decimal x.c (stops_dot (decimal x.d.toNat ++ rest))
  have hd := readOctet_decimal x.d hrest
  simp [read, chars, ha, hb, hc, hd]

theorem ofChars?_chars (x : Ipv4Address) : ofChars? x.chars = some x := by
  have hread := read_chars x (stops_nil digit?)
  rw [List.append_nil] at hread
  rw [ofChars?, hread]

theorem read_of_stops {cs : List Char} (h : Stops digit? cs) : read cs = none := by
  simp [read, readOctet, run_of_stops h]

theorem read_eq_none {cs : List Char} (h : '.' ∉ cs) : read cs = none := by
  cases hocted : readOctet cs with
  | none => simp [read, hocted]
  | some r =>
    obtain ⟨a, rest⟩ := r
    have hexpect : Split.expect '.' rest = none :=
      Split.expect_eq_none fun hmem => h ((readOctet_suffix hocted).mem hmem)
    simp [read, hocted, hexpect]

/-- There is nothing but digits and dots in the text. -/
theorem mem_chars {x : Ipv4Address} {c : Char} (h : c ∈ x.chars) :
    c = '.' ∨ ∃ d < 10, c = d.digitChar := by
  simp only [chars, List.mem_append, List.mem_cons] at h
  rcases h with h | rfl | h | rfl | h | rfl | h
  · exact .inr (mem_decimal h)
  · exact .inl rfl
  · exact .inr (mem_decimal h)
  · exact .inl rfl
  · exact .inr (mem_decimal h)
  · exact .inl rfl
  · exact .inr (mem_decimal h)

theorem not_mem_chars (x : Ipv4Address) {c : Char} (hdot : c ≠ '.')
    (hdigit : ∀ d < 10, c ≠ d.digitChar) : c ∉ x.chars := by
  intro h
  rcases mem_chars h with heq | ⟨d, hd, heq⟩
  · exact hdot heq
  · exact hdigit d hd heq

end Ipv4Address

end DeviceClient
