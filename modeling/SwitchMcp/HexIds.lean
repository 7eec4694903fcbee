import SwitchMcp.Names
import SwitchMcp.Saves
/-!
# HexIds — 64-bit ids as hexadecimal text (agent/source/handlers/savedata.cpp, album.cpp)

The console's ids leave the agent as `%016lx` and come back through `strtoull` with base 16: `strtoull16_fmtHex` says that
every one of them comes back as it left.
-/
namespace SwitchMcp
namespace Agent

open Json (Value ofPy toPy)
open JsonText (lowHex)

/-- `%0wx` of a number below `16 ^ w`. -/
def fmtHex : Nat → Nat → Bytes
  | 0, _ => []
  | w + 1, n => fmtHex w (n / 16) ++ [(lowHex (n % 16)).byte]

/-- `SetHex64`. -/
def setHex64 (obj : Value) (k : String) (v : UInt64) : Value := obj.set (str k) (.string (fmtHex 16 v.toNat))

theorem length_fmtHex : ∀ w n : Nat, (fmtHex w n).length = w
  | 0, _ => rfl
  | w + 1, n => by rw [fmtHex, List.length_append, length_fmtHex w, List.length_singleton]

theorem hex_plain : ∀ d : Fin 16, let b := (lowHex d.val).byte
    isXDigit b = true ∧ b ≠ 0 ∧ isSpace b = false ∧ b ≠ ch '-' ∧ b ≠ ch '+' ∧ b ≠ ch 'x' ∧ b ≠ ch 'X' ∧ b.toNat < 0x80 ∧
      Json.hexDigit b = some d.val := by decide

theorem mem_fmtHex : ∀ (w n : Nat) {b : UInt8}, b ∈ fmtHex w n → ∃ d : Fin 16, b = (lowHex d.val).byte
  | 0, _, b, h => by cases h
  | w + 1, n, b, h => by
    rw [fmtHex] at h
    rcases List.mem_append.1 h with h | h
    · exact mem_fmtHex w _ h
    · exact ⟨⟨n % 16, Nat.mod_lt _ (by decide)⟩, List.mem_singleton.1 h⟩

/-- The value of a run of hexadecimal digits. -/
theorem foldl_fmtHex : ∀ w n : Nat, n < 16 ^ w →
    (fmtHex w n).foldl (fun m d => 16 * m + (Json.hexDigit d).getD 0) 0 = n
  | 0, n, h => by
    rw [pow_zero] at h
    rw [fmtHex, List.foldl_nil]
    omega
  | w + 1, n, h => by
    have hdigit : Json.hexDigit (lowHex (n % 16)).byte = some (n % 16) :=
      (hex_plain ⟨n % 16, Nat.mod_lt _ (by decide)⟩).2.2.2.2.2.2.2.2
    rw [fmtHex, List.foldl_append, foldl_fmtHex w (n / 16) (by rw [pow_succ] at h; omega), List.foldl_cons, List.foldl_nil, hdigit,
      Option.getD_some]
    omega

/-- A run of hexadecimal digits has no blanks before it, no sign and no marker, and nothing after it. -/
theorem hexText_fmtHex (w n : Nat) : hexText (fmtHex w n) = ⟨[], [], [], fmtHex w n, []⟩ := by
  have hall : ∀ b ∈ fmtHex w n, isXDigit b = true := by
    intro b hb
    obtain ⟨d, rfl⟩ := mem_fmtHex w n hb
    exact (hex_plain d).1
  have hspace : ∀ b ∈ fmtHex w n, isSpace b = false := by
    intro b hb
    obtain ⟨d, rfl⟩ := mem_fmtHex w n hb
    exact (hex_plain d).2.2.1
  have htake : (fmtHex w n).takeWhile isSpace = [] ∧ (fmtHex w n).dropWhile isSpace = fmtHex w n := by
    cases hl : fmtHex w n with
    | nil => exact ⟨rfl, rfl⟩
    | cons b l =>
      have hb := hspace b (by rw [hl]; exact List.mem_cons_self)
      exact ⟨by rw [List.takeWhile_cons, hb]; rfl, by rw [List.dropWhile_cons, hb]; rfl⟩
  have hsign : Json.signText (fmtHex w n) = [] := by
    unfold Json.signText
    split
    · rename_i b l hl
      obtain ⟨d, hd⟩ := mem_fmtHex w n (b := b) (by rw [hl]; exact List.mem_cons_self)
      have hp := hex_plain d
      rw [if_neg]
      rw [hd]
      exact fun h => h.elim hp.2.2.2.1 hp.2.2.2.2.1
    · rfl
  have hmark : hexPrefix (fmtHex w n) = [] := by
    unfold hexPrefix
    split
    · rename_i a b l hl
      obtain ⟨d, hd⟩ := mem_fmtHex w n (b := b) (by rw [hl]; simp)
      have hp := hex_plain d
      rw [if_neg]
      rintro ⟨-, h⟩
      rw [hd] at h
      exact h.elim hp.2.2.2.2.2.1 hp.2.2.2.2.2.2.1
    · rfl
  unfold hexText
  simp only [htake.1, htake.2, hsign, hmark, List.length_nil, List.drop_zero]
  rw [List.takeWhile_eq_self_iff.2 hall, List.dropWhile_eq_nil_iff.2 hall]

/-- **An id is read back as it was written.** -/
theorem strtoull16_fmtHex (v : UInt64) : strtoull16 (fmtHex 16 v.toNat) = v := by
  have hlt := v.toNat_lt
  have hnul : cStr (fmtHex 16 v.toNat) = fmtHex 16 v.toNat := by
    refine cStr_of_no_nul _ fun h => ?_
    obtain ⟨d, hd⟩ := mem_fmtHex 16 v.toNat h
    exact (hex_plain d).2.1 hd.symm
  unfold strtoull16
  rw [hnul, hexText_fmtHex]
  dsimp only
  rw [foldl_fmtHex 16 v.toNat (by omega), if_neg (by omega), if_neg (by decide), UInt64.ofNat_toNat]

/-! ## Through the client -/

/-- An ASCII text comes back from the client as it went. -/
theorem agentStr_decoded {s : Bytes} (h : ∀ b ∈ s, b.toNat < 0x80) : Json.agentStr (Json.decoded s) = s := by
  have hval : ∀ b ∈ s, (cp b.toNat).val = b.toNat := fun b _ => Json.cp_val_of_lt (by have := b.toNat_lt; omega)
  have hutf : utf8 (s.map fun b => cp b.toNat) = s := by
    induction s with
    | nil => rfl
    | cons b s ih =>
      rw [List.map_cons, utf8_cons, ih (fun c hc => h c (List.mem_cons_of_mem _ hc)) (fun c hc => hval c
        (List.mem_cons_of_mem _ hc)), hval b List.mem_cons_self, utf8Char, if_pos (h b List.mem_cons_self),
        UInt8.ofNat_toNat, List.singleton_append]
  have hbmp : Bmp (s.map fun b => cp b.toNat) := by
    intro c hc
    obtain ⟨b, hb, rfl⟩ := List.mem_map.1 hc
    have := h b hb
    rw [hval b hb]
    omega
  conv_lhs => rw [← hutf]
  rw [Json.decoded_utf8, agentStr_bmp hbmp, hutf]

theorem ascii_fmtHex (w n : Nat) : ∀ b ∈ fmtHex w n, b.toNat < 0x80 := by
  intro b hb
  obtain ⟨d, rfl⟩ := mem_fmtHex w n hb
  exact (hex_plain d).2.2.2.2.2.2.2.1

/-- **An id comes back from the client as it went.** -/
theorem ofPy_toPy_fmtHex (w n : Nat) : ofPy (toPy (.string (fmtHex w n))) = .string (fmtHex w n) := by
  rw [toPy, ofPy, agentStr_decoded (ascii_fmtHex w n)]

end Agent
end SwitchMcp
