import WixelSdk.Ring
import Mathlib.Data.UInt

/-!
# Circular buffers with 8-bit indices

A ring of 256 slots whose indices are bytes: an index wraps around by itself, and the number of
slots in use is the difference of the two indices. These are the rings of `Ring` at size 256.
-/

namespace WixelSdk.ByteRing

variable {α : Type*} {r w : UInt8}

def contents (mem : UInt8 → α) (r w : UInt8) : List α :=
  Ring.contents 256 (fun i => mem (UInt8.ofNat i)) r.toNat w.toNat

theorem toNat_succ (i : UInt8) : (i + 1).toNat = Ring.next 256 i.toNat := by
  have hi := i.toNat_lt
  rw [UInt8.toNat_add]
  unfold Ring.next
  split_ifs <;> simp <;> omega

theorem count_eq (r w : UInt8) : Ring.count 256 r.toNat w.toNat = (w - r).toNat := by
  have hr := r.toNat_lt
  have hw := w.toNat_lt
  rw [UInt8.toNat_sub]
  unfold Ring.count
  split_ifs <;> omega

@[simp] theorem length_contents (mem : UInt8 → α) :
    (contents mem r w).length = (w - r).toNat := by
  rw [contents, Ring.length_contents, count_eq]

@[simp] theorem contents_self (mem : UInt8 → α) : contents mem r r = [] := Ring.contents_self _

theorem contents_cons (mem : UInt8 → α) (hne : r ≠ w) :
    contents mem r w = mem r :: contents mem (r + 1) w := by
  have hne' : r.toNat ≠ w.toNat := fun he => hne (UInt8.toNat_inj.mp he)
  rw [contents, Ring.contents_cons _ r.toNat_lt w.toNat_lt hne', contents, toNat_succ,
    UInt8.ofNat_toNat]

/-- The slots in use and the free ones, of which one is never used. -/
theorem toNat_used_add_free (r w : UInt8) : (w - r).toNat + (r - w - 1).toNat = 255 := by
  have hr := r.toNat_lt
  have hw := w.toNat_lt
  simp only [UInt8.toNat_sub, UInt8.reduceToNat]
  omega

theorem next_ne (hfree : r - w - 1 ≠ 0) : Ring.next 256 w.toNat ≠ r.toNat := by
  intro he
  apply hfree
  have hr : r = w + 1 := UInt8.toNat_inj.mp (by rw [toNat_succ, he])
  subst hr
  rw [UInt8.add_comm, UInt8.add_sub_cancel]
  rfl

/-- Writing the writer's slot does not touch what the reader owns. -/
theorem contents_update (mem : UInt8 → α) (x : α) :
    contents (Function.update mem w x) r w = contents mem r w := by
  apply Ring.contents_congr
  intro i hi
  apply Function.update_of_ne
  intro he
  have hlt := Ring.owned_lt r.toNat_lt w.toNat_lt hi
  have hi' : i = w.toNat := by rw [← he, UInt8.toNat_ofNat_of_lt' hlt]
  exact Ring.write_notMem_owned w.toNat_lt (hi' ▸ hi)

theorem contents_succ (mem : UInt8 → α) (hfree : r - w - 1 ≠ 0) :
    contents mem r (w + 1) = contents mem r w ++ [mem w] := by
  rw [contents, toNat_succ, Ring.contents_next_write _ r.toNat_lt w.toNat_lt (next_ne hfree),
    UInt8.ofNat_toNat, contents]

end WixelSdk.ByteRing
