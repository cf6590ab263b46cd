import Mathlib.Data.List.AList
import Mathlib.Algebra.BigOperators.Group.List.Basic
import HftRecorder.Lib.ByteLayout

/-!
# A directory of files whose operations can fail

`Disk ν` is a finite map from file names to contents together with the outcomes that the operating
system has in store for the next operations. Every primitive consumes one outcome: success, or a
failure that happens after some number of bytes has reached the file. An empty list of outcomes
means that everything from here on succeeds, so a run without I/O failures is one with `faults = []`.
The lemmas say what each primitive leaves in the files, whatever fails.
-/

open ByteLayout

/-- The contents of a directory, and the outcomes of the operations to come. -/
structure Disk (ν : Type) where
  /-- The files that exist, each with its contents. -/
  files : AList fun _ : ν => Bytes
  /-- The outcomes of the next operations: `none` for success, `some k` for a failure after `k`
  bytes were written. Operations beyond the list succeed. -/
  faults : List (Option ℕ) := []

namespace Disk

variable {ν : Type} [DecidableEq ν]

def read (d : Disk ν) (f : ν) : Option Bytes := d.files.lookup f

/-- The contents of a file, empty if it does not exist. -/
def contents (d : Disk ν) (f : ν) : Bytes := (d.read f).getD []

def put (d : Disk ν) (f : ν) (b : Bytes) : Disk ν := { d with files := d.files.insert f b }

def drop (d : Disk ν) (f : ν) : Disk ν := { d with files := d.files.erase f }

def attempt (d : Disk ν) : Option ℕ × Disk ν :=
  match d.faults with
  | [] => (none, d)
  | outcome :: rest => (outcome, { d with faults := rest })

/-- An operation that changes no contents, such as a sync. -/
def sync (d : Disk ν) : Bool × Disk ν :=
  match d.attempt with
  | (none, d) => (true, d)
  | (some _, d) => (false, d)

/-- Open a file for writing and truncate it. -/
def create (d : Disk ν) (f : ν) : Bool × Disk ν :=
  match d.attempt with
  | (none, d) => (true, d.put f [])
  | (some _, d) => (false, d)

def append (d : Disk ν) (f : ν) (b : Bytes) : Bool × Disk ν :=
  match d.attempt with
  | (none, d) => (true, d.put f (d.contents f ++ b))
  | (some k, d) => (false, d.put f (d.contents f ++ b.take k))

def overwrite (d : Disk ν) (f : ν) (b : Bytes) : Bool × Disk ν :=
  match d.attempt with
  | (none, d) => (true, d.put f (b ++ (d.contents f).drop b.length))
  | (some k, d) => (false, d.put f (b.take k ++ (d.contents f).drop (b.take k).length))

/-- Move a file over another. A file that does not exist cannot be moved. -/
def rename (d : Disk ν) (source target : ν) : Bool × Disk ν :=
  match d.attempt with
  | (none, d) =>
    match d.read source with
    | some b => (true, (d.drop source).put target b)
    | none => (false, d)
  | (some _, d) => (false, d)

def remove (d : Disk ν) (f : ν) : Bool × Disk ν :=
  match d.attempt with
  | (none, d) => (true, d.drop f)
  | (some _, d) => (false, d)

/-- Write the pieces one after the other at the end of a file. -/
def appendAll (d : Disk ν) (f : ν) : List Bytes → Bool × Disk ν
  | [] => (true, d)
  | b :: bs =>
    match d.append f b with
    | (true, d) => d.appendAll f bs
    | (false, d) => (false, d)

/-- Replace a file atomically: the pieces are written to a temporary file, which is flushed, synced,
and moved over the target, and then the directory is synced. -/
def replace (d : Disk ν) (temporary target : ν) (pieces : List Bytes) : Bool × Disk ν :=
  match d.create temporary with
  | (false, d) => (false, d)
  | (true, d) =>
    match d.appendAll temporary pieces with
    | (false, d) => (false, d)
    | (true, d) =>
      match d.sync with
      | (false, d) => (false, d)
      | (true, d) =>
        match d.sync with
        | (false, d) => (false, d)
        | (true, d) =>
          match d.rename temporary target with
          | (false, d) => (false, d)
          | (true, d) => d.sync

@[simp]
theorem read_put_same (d : Disk ν) (f : ν) (b : Bytes) : (d.put f b).read f = some b := by
  simp [read, put]

theorem read_put_ne (d : Disk ν) {f g : ν} (b : Bytes) (h : g ≠ f) :
    (d.put f b).read g = d.read g := by
  simp [read, put, AList.lookup_insert_ne h]

theorem read_drop_ne (d : Disk ν) {f g : ν} (h : g ≠ f) : (d.drop f).read g = d.read g := by
  simp [read, drop, AList.lookup_erase_ne h]

/-! ## What the primitives leave, whatever fails -/

@[simp]
theorem read_attempt (d : Disk ν) (f : ν) : d.attempt.2.read f = d.read f := by
  unfold attempt
  split <;> rfl

theorem read_sync (d : Disk ν) (f : ν) : d.sync.2.read f = d.read f := by
  have h := d.read_attempt f
  unfold sync
  split <;> rename_i he <;> rwa [he] at h

theorem read_create_ne (d : Disk ν) {f g : ν} (hne : g ≠ f) : (d.create f).2.read g = d.read g := by
  have h := d.read_attempt g
  unfold create
  split <;> rename_i he <;> rw [he] at h
  · rw [read_put_ne _ _ hne, h]
  · exact h

theorem read_append_ne (d : Disk ν) {f g : ν} (b : Bytes) (hne : g ≠ f) :
    (d.append f b).2.read g = d.read g := by
  have h := d.read_attempt g
  unfold append
  split <;> rename_i he <;> rw [he] at h <;> rw [read_put_ne _ _ hne, h]

theorem read_rename_ne (d : Disk ν) {source target g : ν} (hsource : g ≠ source)
    (htarget : g ≠ target) : (d.rename source target).2.read g = d.read g := by
  have h := d.read_attempt g
  unfold rename
  split
  · rename_i he
    rw [he] at h
    split
    · rw [read_put_ne _ _ htarget, read_drop_ne _ hsource, h]
    · exact h
  · rename_i he
    rwa [he] at h

theorem read_remove_ne (d : Disk ν) {f g : ν} (hne : g ≠ f) : (d.remove f).2.read g = d.read g := by
  have h := d.read_attempt g
  unfold remove
  split <;> rename_i he <;> rw [he] at h
  · rw [read_drop_ne _ hne, h]
  · exact h

theorem read_appendAll_ne (d : Disk ν) {f g : ν} (pieces : List Bytes) (hne : g ≠ f) :
    (d.appendAll f pieces).2.read g = d.read g := by
  induction pieces generalizing d with
  | nil => rfl
  | cons b bs ih =>
    have h := d.read_append_ne b hne
    unfold appendAll
    split <;> rename_i he <;> rw [he] at h
    · rw [ih, h]
    · exact h

theorem read_replace_ne (d : Disk ν) {temporary target g : ν} (pieces : List Bytes)
    (htemporary : g ≠ temporary) (htarget : g ≠ target) :
    (d.replace temporary target pieces).2.read g = d.read g := by
  have hcreate := d.read_create_ne htemporary
  unfold replace
  split <;> rename_i d₁ h₁ <;> rw [h₁] at hcreate
  · exact hcreate
  have happend := d₁.read_appendAll_ne pieces htemporary
  split <;> rename_i d₂ h₂ <;> rw [h₂] at happend
  · exact happend.trans hcreate
  have hflush := d₂.read_sync g
  split <;> rename_i d₃ h₃ <;> rw [h₃] at hflush
  · exact hflush.trans (happend.trans hcreate)
  have hsync := d₃.read_sync g
  split <;> rename_i d₄ h₄ <;> rw [h₄] at hsync
  · exact hsync.trans (hflush.trans (happend.trans hcreate))
  have hrename := d₄.read_rename_ne htemporary htarget
  split <;> rename_i d₅ h₅ <;> rw [h₅] at hrename
  · exact hrename.trans (hsync.trans (hflush.trans (happend.trans hcreate)))
  · exact (d₅.read_sync g).trans (hrename.trans (hsync.trans (hflush.trans (happend.trans hcreate))))

/-- Pieces that are all appended stand behind what the file had. -/
theorem read_of_appendAll {d e : Disk ν} {f : ν} {a : Bytes} {pieces : List Bytes}
    (ha : d.read f = some a) (h : d.appendAll f pieces = (true, e)) :
    e.read f = some (a ++ pieces.flatten) := by
  induction pieces generalizing d a with
  | nil =>
    cases h
    simpa using ha
  | cons b bs ih =>
    have hattempt := d.read_attempt f
    unfold appendAll append at h
    split at h
    · rename_i d₁ h₁
      split at h₁
      · rename_i d₂ h₂
        rw [h₂] at hattempt
        cases h₁
        have hcontents : d₂.contents f = a := by simp [contents, hattempt, ha]
        have hread : (d₂.put f (d₂.contents f ++ b)).read f = some (a ++ b) := by
          rw [read_put_same, hcontents]
        rw [ih hread h, List.flatten_cons, List.append_assoc]
      · cases h₁
    · cases h

/-- An atomic replacement that succeeds leaves the target with the new contents. -/
theorem read_of_replace {d e : Disk ν} {temporary target : ν} {pieces : List Bytes}
    (h : d.replace temporary target pieces = (true, e)) : e.read target = some pieces.flatten := by
  unfold replace at h
  split at h
  · cases h
  rename_i d₁ h₁
  have hcreate : d₁.read temporary = some [] := by
    unfold create at h₁
    split at h₁
    · cases h₁
      exact read_put_same ..
    · cases h₁
  split at h
  · cases h
  rename_i d₂ h₂
  -- The pieces stay in the temporary file until it is moved.
  have happend := read_of_appendAll hcreate h₂
  rw [List.nil_append] at happend
  split at h
  · cases h
  rename_i d₃ h₃
  have hflush := d₂.read_sync temporary
  rw [h₃] at hflush
  split at h
  · cases h
  rename_i d₄ h₄
  have hsync := d₃.read_sync temporary
  rw [h₄] at hsync
  split at h
  · cases h
  rename_i d₅ h₅
  have hlast := d₅.read_sync target
  rw [h] at hlast
  rw [hlast]
  unfold rename at h₅
  have hattempt := d₄.read_attempt temporary
  split at h₅
  · rename_i d₆ h₆
    rw [h₆, hsync, hflush, happend] at hattempt
    dsimp only at hattempt
    rw [hattempt] at h₅
    cases h₅
    exact read_put_same ..
  · cases h₅

def fileBytes (d : Disk ν) (f : ν) : ℕ := (d.contents f).length

end Disk
