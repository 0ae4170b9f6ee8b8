import GlifiStore.Lib.ByteLayout

/-!
# Files under crashes

A file is the image that the last completed sync made durable, the image that
reads see, and the writes issued since. A crash leaves any image that agrees
with the durable one outside the ranges of those writes.
-/

namespace CrashFile

open ByteLayout

/-- The contents of a file, position by position. -/
abbrev Image (α : Type) := Nat → α

section Images

variable {α : Type}
variable {start count at' size : Nat} {data : List α} {image : Image α}

def read (image : Image α) (start count : Nat) : List α :=
  (List.range count).map fun i => image (start + i)

def overwrite (image : Image α) (start : Nat) (data : List α) : Image α :=
  fun i => if start ≤ i then (data[i - start]?).getD (image i) else image i

@[simp]
theorem length_read (image : Image α) (start count : Nat) :
    (read image start count).length = count := by
  simp [read]

theorem getElem?_read (image : Image α) (start count i : Nat) :
    (read image start count)[i]? = if i < count then some (image (start + i)) else none := by
  rw [read, List.getElem?_map]
  by_cases inside : i < count
  · rw [if_pos inside, List.getElem?_range inside]
    rfl
  · rw [if_neg inside, List.getElem?_eq_none (by simpa using inside)]
    rfl

theorem read_const (value : α) (start count : Nat) :
    read (fun _ => value) start count = List.replicate count value := by
  rw [read, List.map_const', List.length_range]

theorem overwrite_outside {i : Nat} (outside : i < start ∨ start + data.length ≤ i) :
    overwrite image start data i = image i := by
  unfold overwrite
  by_cases low : start ≤ i
  · rw [if_pos low, List.getElem?_eq_none (by omega)]
    rfl
  · rw [if_neg low]

theorem read_congr {left right : Image α}
    (same : ∀ i, start ≤ i → i < start + count → left i = right i) :
    read left start count = read right start count := by
  apply List.ext_getElem?
  intro i
  rw [getElem?_read, getElem?_read]
  by_cases inside : i < count
  · rw [if_pos inside, if_pos inside, same (start + i) (by omega) (by omega)]
  · rw [if_neg inside, if_neg inside]

theorem read_overwrite_self (whole : data.length = count) :
    read (overwrite image start data) start count = data := by
  apply List.ext_getElem?
  intro i
  rw [getElem?_read]
  by_cases inside : i < count
  · rw [if_pos inside, overwrite, if_pos (by omega), Nat.add_sub_cancel_left,
      List.getElem?_eq_getElem (by omega)]
    rfl
  · rw [if_neg inside, List.getElem?_eq_none (by omega)]

theorem read_overwrite_inside (inside : at' + count ≤ data.length) :
    read (overwrite image 0 data) at' count = slice data at' count := by
  apply List.ext_getElem?
  intro i
  rw [getElem?_read, getElem?_slice]
  by_cases within : i < count
  · rw [if_pos within, if_pos within, overwrite, if_pos (Nat.zero_le _), Nat.sub_zero,
      List.getElem?_eq_getElem (by omega)]
    rfl
  · rw [if_neg within, if_neg within]

theorem read_overwrite_of_disjoint (apart : at' + count ≤ start ∨ start + data.length ≤ at') :
    read (overwrite image start data) at' count = read image at' count :=
  read_congr fun i low high => overwrite_outside (by omega)

theorem read_add (image : Image α) (start left right : Nat) :
    read image start (left + right) = read image start left ++ read image (start + left) right := by
  simp only [read, List.range_add, List.map_append, List.map_map, Function.comp_def, Nat.add_assoc]

theorem slice_read (fits : at' + size ≤ count) :
    slice (read image start count) at' size = read image (start + at') size := by
  apply List.ext_getElem?
  intro i
  rw [getElem?_slice, getElem?_read, getElem?_read]
  by_cases inside : i < size
  · rw [if_pos inside, if_pos inside, if_pos (by omega), Nat.add_assoc]
  · rw [if_neg inside, if_neg inside]

theorem take_read (fits : size ≤ count) :
    (read image start count).take size = read image start size := by
  have part : slice (read image start count) 0 size = read image (start + 0) size :=
    slice_read (by omega)
  simpa [slice] using part

theorem drop_read (fits : size ≤ count) :
    (read image start count).drop size = read image (start + size) (count - size) := by
  rw [drop_eq_slice, length_read]
  exact slice_read (by omega)

end Images

structure Write (α : Type) where
  start : Nat
  data : List α

def Write.Covers {α : Type} (write : Write α) (i : Nat) : Prop :=
  write.start ≤ i ∧ i < write.start + write.data.length

def Write.Avoids {α : Type} (write : Write α) (start count : Nat) : Prop :=
  start + count ≤ write.start ∨ write.start + write.data.length ≤ start

/-- A file with its durable image, its visible image and the writes since the
last completed sync. -/
structure File (α : Type) where
  durable : Image α
  visible : Image α
  outstanding : List (Write α)

namespace File

variable {α : Type} (file : File α)

def write (start : Nat) (data : List α) (done : Nat) : File α :=
  { file with
    visible := overwrite file.visible start (data.take done)
    outstanding := file.outstanding ++ [⟨start, data⟩] }

def sync : File α :=
  { file with durable := file.visible, outstanding := [] }

def synced (image : Image α) : File α :=
  ⟨image, image, []⟩

/-- The images that a crash may leave: each outstanding write is absent, whole
or torn into arbitrary cells. -/
def Survives (image : Image α) : Prop :=
  ∀ i, (∀ write ∈ file.outstanding, ¬ write.Covers i) → image i = file.durable i

theorem Survives.read_eq {file : File α} {image : Image α} (survives : file.Survives image)
    {start count : Nat} (clear : ∀ write ∈ file.outstanding, write.Avoids start count) :
    read image start count = read file.durable start count := by
  apply read_congr
  intro i low high
  apply survives
  intro write member covered
  have avoided := clear write member
  unfold Write.Covers at covered
  unfold Write.Avoids at avoided
  omega

/-- What is visible differs from what is durable only by outstanding writes. -/
def Settled : Prop :=
  file.Survives file.visible

theorem settled_synced (image : Image α) : (synced image).Settled := fun _ _ => rfl

theorem settled_sync : file.sync.Settled := fun _ _ => rfl

theorem Settled.write {file : File α} (settled : file.Settled) (start : Nat) (data : List α)
    (done : Nat) : (file.write start data done).Settled := by
  intro i clear
  have uncovered : ¬ Write.Covers ⟨start, data⟩ i := clear _ (by simp [File.write])
  have same : overwrite file.visible start (data.take done) i = file.visible i := by
    apply overwrite_outside
    unfold Write.Covers at uncovered
    simp only [List.length_take] at uncovered ⊢
    omega
  refine same.trans (settled i ?_)
  intro write member
  exact clear write (by simp [File.write, member])

end File

end CrashFile
