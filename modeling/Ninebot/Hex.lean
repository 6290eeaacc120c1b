import Ninebot.Coordinator

/-! # Hex texts

    `bytes.fromhex` reads back what `bytes.hex` has written, in lower case and
    in upper case: the pairing key of a config entry, the raw payloads of a
    snapshot. -/

namespace Ninebot

/-! ## Digits -/

theorem hexValue_digitChar {n : Nat} (h : n < 16) : hexValue (Nat.digitChar n) = some n := by
  have hall : ∀ m : Fin 16, hexValue (Nat.digitChar m) = some m.val := by decide
  exact hall ⟨n, h⟩

theorem digitChar_not_hexSpace {n : Nat} (h : n < 16) : hexSpace (Nat.digitChar n) = false := by
  have hall : ∀ m : Fin 16, hexSpace (Nat.digitChar m) = false := by decide
  exact hall ⟨n, h⟩

theorem hexValue_hexDigit {n : Nat} (h : n < 16) : hexValue (hexDigit n) = some n := by
  have hall : ∀ m : Fin 16, hexValue (hexDigit m) = some m.val := by decide
  exact hall ⟨n, h⟩

theorem hexDigit_not_hexSpace {n : Nat} (h : n < 16) : hexSpace (hexDigit n) = false := by
  have hall : ∀ m : Fin 16, hexSpace (hexDigit m) = false := by decide
  exact hall ⟨n, h⟩

/-! ## Bytes -/

/-- Two digits for each byte, whatever the sixteen digits are. -/
theorem fromHex_digits {digit : Nat → Char} (hvalue : ∀ n, n < 16 → hexValue (digit n) = some n)
    (hspace : ∀ n, n < 16 → hexSpace (digit n) = false) (data : Bytes) :
    fromHex (data.flatMap fun b => [digit (b.toNat / 16), digit (b.toNat % 16)]) = .ok data := by
  induction data with
  | nil => rfl
  | cons b rest ih =>
    have hb : b.toNat < 256 := b.toNat_lt
    have hhigh : b.toNat / 16 < 16 := by omega
    have hlow : b.toNat % 16 < 16 := by omega
    have hbyte : UInt8.ofNat (16 * (b.toNat / 16) + b.toNat % 16) = b := by
      rw [Nat.div_add_mod, UInt8.ofNat_toNat]
    simp only [List.flatMap_cons, List.cons_append, List.nil_append, fromHex, hspace _ hhigh,
      hvalue _ hhigh, hvalue _ hlow, hbyte, ih]
    rfl

/-- `bytes.fromhex(data.hex())` is the data. -/
theorem fromHex_hexLower (data : Bytes) : fromHex (hexLower data).toList = .ok data := by
  rw [hexLower, String.toList_ofList]
  exact fromHex_digits (fun _ => hexValue_digitChar) (fun _ => digitChar_not_hexSpace) data

/-- `bytes.fromhex(data.hex().upper())` is the data. -/
theorem fromHex_hexUpper (data : Bytes) : fromHex (hexUpper data).toList = .ok data := by
  rw [hexUpper, String.toList_ofList]
  exact fromHex_digits (fun _ => hexValue_hexDigit) (fun _ => hexDigit_not_hexSpace) data

/-! ## The key of a config entry -/

theorem hexLower_eq_empty {key : Bytes} (h : hexLower key = "") : key = [] := by
  have hround := fromHex_hexLower key
  rw [h] at hround
  exact (Except.ok.inj hround).symm

theorem storedKey_hexLower {entry : ConfigEntry} {key : Bytes} (hkey : key ≠ [])
    (h : entry.appKey = some (hexLower key)) : entry.storedKey = .ok (some key) := by
  have htext : hexLower key ≠ "" := fun hempty => hkey (hexLower_eq_empty hempty)
  unfold ConfigEntry.storedKey
  rw [h]
  simp only [htext, if_false]
  rw [fromHex_hexLower]
  rfl

end Ninebot
