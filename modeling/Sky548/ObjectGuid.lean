import Mathlib.Algebra.Order.Ring.Int

/-!
64-bit object GUIDs (`ObjectDefines.h`).

The low 32 bits are the object's counter, the high part names its kind. A
player's high part is zero, so a player's GUID is its low part widened; a
packet may carry any 64-bit value.
-/

namespace Sky548

def highGuidPlayer : UInt32 := 0x000

def highGuidGroup : UInt32 := 0x1F5

def highGuidCorpse : UInt32 := 0xF0C0

def highGuidAreaTrigger : UInt32 := 0xF102

def makeNewGuid (l e h : UInt32) : UInt64 :=
  l.toUInt64 ||| (e.toUInt64 <<< 32) |||
    (h.toUInt64 <<< (if h = highGuidCorpse ∨ h = highGuidAreaTrigger then 48 else 52))

def guidLoPart (guid : UInt64) : UInt32 := guid.toUInt32

def guidHiPart (guid : UInt64) : UInt32 :=
  let t : UInt32 := ((guid >>> 48) &&& 0x0000FFFF).toUInt32
  if t = highGuidCorpse ∨ t = highGuidAreaTrigger then t else (t >>> 4) &&& 0x00000FFF

def isGroupGuid (guid : UInt64) : Bool := guidHiPart guid == highGuidGroup

def playerGuid (low : UInt32) : UInt64 := makeNewGuid low 0 highGuidPlayer

theorem playerGuid_eq (low : UInt32) : playerGuid low = low.toUInt64 := by
  simp [playerGuid, makeNewGuid, highGuidPlayer]

@[simp] theorem guidLoPart_playerGuid (low : UInt32) : guidLoPart (playerGuid low) = low := by
  rw [playerGuid_eq, guidLoPart]
  simp

theorem playerGuid_inj {a b : UInt32} (same : playerGuid a = playerGuid b) : a = b := by
  rw [← guidLoPart_playerGuid a, same, guidLoPart_playerGuid]

/-- `a` is a player's GUID: it is rebuilt from its low part. -/
def IsPlayerGuid (guid : UInt64) : Prop := playerGuid (guidLoPart guid) = guid

instance (guid : UInt64) : Decidable (IsPlayerGuid guid) :=
  inferInstanceAs (Decidable (playerGuid (guidLoPart guid) = guid))

theorem isPlayerGuid_playerGuid (low : UInt32) : IsPlayerGuid (playerGuid low) := by
  rw [IsPlayerGuid, guidLoPart_playerGuid]

theorem IsPlayerGuid.eq_of_lo {a b : UInt64} (ha : IsPlayerGuid a) (hb : IsPlayerGuid b)
    (same : guidLoPart a = guidLoPart b) : a = b := by
  rw [← ha, ← hb, same]

theorem lawfulBEqUInt32 : LawfulBEq UInt32 := inferInstance

/-- GUIDs and low parts are ordered as the numbers they are. -/
instance linearOrderUInt64 : LinearOrder UInt64 where
  le_refl a := UInt64.le_refl a
  le_trans _ _ _ := UInt64.le_trans
  lt_iff_le_not_ge a b := by
    rw [UInt64.lt_iff_toNat_lt, UInt64.le_iff_toNat_le, UInt64.le_iff_toNat_le]
    omega
  le_antisymm _ _ := UInt64.le_antisymm
  le_total a b := UInt64.le_total a b
  toDecidableLE := inferInstance
  toDecidableLT := inferInstance
  toDecidableEq := inferInstance

instance linearOrderUInt32 : LinearOrder UInt32 where
  le_refl a := UInt32.le_refl a
  le_trans _ _ _ := UInt32.le_trans
  lt_iff_le_not_ge a b := by
    rw [UInt32.lt_iff_toNat_lt, UInt32.le_iff_toNat_le, UInt32.le_iff_toNat_le]
    omega
  le_antisymm _ _ := UInt32.le_antisymm
  le_total a b := UInt32.le_total a b
  toDecidableLE := inferInstance
  toDecidableLT := inferInstance
  toDecidableEq := inferInstance

instance linearOrderUInt8 : LinearOrder UInt8 where
  le_refl a := UInt8.le_refl a
  le_trans _ _ _ := UInt8.le_trans
  lt_iff_le_not_ge a b := by
    rw [UInt8.lt_iff_toNat_lt, UInt8.le_iff_toNat_le, UInt8.le_iff_toNat_le]
    omega
  le_antisymm _ _ := UInt8.le_antisymm
  le_total a b := UInt8.le_total a b
  toDecidableLE := inferInstance
  toDecidableLT := inferInstance
  toDecidableEq := inferInstance

end Sky548
