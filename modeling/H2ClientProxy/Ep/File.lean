import Mathlib.Algebra.Ring.Int.Defs
import Mathlib.Algebra.Ring.Nat
import Mathlib.Tactic.SplitIfs

/-!
# The event mask of a file: `ep_file_detect` and its readers

`base->files[fd]` holds the events a descriptor is registered for and the `ep_file` that owns it.
One `EpFile` stands for one live `ep_file` together with that slot.  The timers of files are not
part of it.
-/

namespace H2ClientProxy

/-- A `short` with the bits of `EP_READ`, `EP_WRITE` and `EP_ERROR`. -/
abbrev Mask := BitVec 16

def EP_READ : Mask := 1
def EP_WRITE : Mask := 2
def EP_ERROR : Mask := 8

/-- `struct ep_file` and `base->files[fd]`. -/
structure EpFile where
  /-- `base->files[fd].mask`. -/
  mask : Mask := 0
  /-- `base->files[fd].file != NULL`. -/
  file : Bool := false
  /-- `ev->timeout`. -/
  timeout : ℤ := -1
  deriving DecidableEq, Repr

/-- `ep_file_create`. -/
def epFileCreate : EpFile := { file := true }

/-- `ep_file_detect(ev, what, timeout)`. -/
def epFileDetect (ev : EpFile) (what : Mask) (timeout : ℤ) : EpFile :=
  if ev.mask = 0 ∧ what = 0 then ev
  else if ev.mask = 0 then { mask := what, file := true, timeout := timeout }
  else if what = 0 then { mask := 0, file := false, timeout := timeout }
  else { ev with mask := what, timeout := timeout }

/-- `ep_file_get_detect`: `-1`, all bits set, once the slot has lost its file. -/
def epFileGetDetect (ev : EpFile) : Mask := if ev.file then ev.mask else -1

/-- `ep_file_get_timeout`. -/
def epFileGetTimeout (ev : EpFile) : ℤ := if ev.file then ev.timeout else -1

/-- `mask & EP_READ`. -/
def wantsRead (m : Mask) : Bool := m &&& EP_READ ≠ 0

/-- `mask & EP_WRITE`. -/
def wantsWrite (m : Mask) : Bool := m &&& EP_WRITE ≠ 0

/-- The mask after `ep_file_detect` is the one that was asked for. -/
@[simp]
theorem epFileDetect_mask (ev : EpFile) (what : Mask) (timeout : ℤ) :
    (epFileDetect ev what timeout).mask = what := by
  unfold epFileDetect
  split_ifs with h1 h2 h3
  · rw [h1.1, h1.2]
  · rfl
  · exact h3.symm
  · rfl

/-- The slot has its file iff the file is interested in something. -/
def Registered (ev : EpFile) : Prop := ev.file = true ↔ ev.mask ≠ 0

/-- From its first interest on a file is registered as long as it is interested in something. -/
theorem Registered.detect {ev : EpFile} (h : Registered ev) (what : Mask) (timeout : ℤ) :
    Registered (epFileDetect ev what timeout) := by
  unfold Registered at h ⊢
  unfold epFileDetect
  split_ifs with h1 h2 h3
  · exact h
  · exact iff_of_true rfl fun h0 => h1 ⟨h2, h0⟩
  · exact iff_of_false not_false fun h0 => h0 rfl
  · exact iff_of_true (h.mpr h2) h3

/-- A registered file gives its mask. -/
theorem Registered.getDetect {ev : EpFile} (h : Registered ev) (hm : ev.mask ≠ 0) :
    epFileGetDetect ev = ev.mask := by
  unfold epFileGetDetect
  rw [if_pos (h.mpr hm)]

/-- A file that has lost its slot gives all bits. -/
theorem Registered.getDetect_lost {ev : EpFile} (h : Registered ev) (hm : ev.mask = 0) :
    epFileGetDetect ev = -1 := by
  unfold epFileGetDetect
  rw [if_neg fun hf => h.mp hf hm]

theorem wantsRead_or_write (m : Mask) : wantsRead (m ||| EP_WRITE) = wantsRead m := by
  have hbits : (m ||| EP_WRITE) &&& EP_READ = m &&& EP_READ := by
    ext i
    rw [BitVec.getElem_and, BitVec.getElem_and, BitVec.getElem_or]
    have hdisj : ((EP_WRITE[i] && EP_READ[i]) = false) := by
      revert i
      decide
    revert hdisj
    cases m[i] <;> cases EP_WRITE[i] <;> cases EP_READ[i] <;> decide
  unfold wantsRead
  rw [hbits]

end H2ClientProxy
