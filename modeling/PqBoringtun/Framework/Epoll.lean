import Mathlib.Data.List.AList

/-! # Descriptors and interest lists

    What a kernel does for `epoll`.  A descriptor refers to an open file, and
    several descriptors may refer to the same one.  The interest list has its
    entries under a descriptor together with the file it referred to when the
    entry was added; an entry goes away with the last descriptor of its file,
    which need not be the one it was added with.

    * `Kernel.close`, `Kernel.add`, `Kernel.modify`, `Kernel.delete`: the
      system calls.
    * `Kernel.report`: an entry that is armed is reported; one with
      `EPOLLONESHOT` is not armed any more then.
-/

namespace Epoll

abbrev Fd : Type := Nat

/-- An open file description. -/
abbrev File : Type := Nat

/-- An entry of the interest list. -/
structure Interest (δ : Type) where
  oneshot : Bool
  data : δ
  armed : Bool

structure Kernel (δ : Type) where
  files : AList fun _ : Fd => File
  interests : Fd → File → Option (Interest δ)

namespace Kernel

variable {δ : Type}

def new : Kernel δ := ⟨∅, fun _ _ => none⟩

/-- Some descriptor refers to the file. -/
def isOpen (k : Kernel δ) (file : File) : Bool := k.files.entries.any fun x => x.2 == file

/-- A new descriptor, of a new file or of one that is open. -/
def openFd (k : Kernel δ) (fd : Fd) (file : File) : Kernel δ :=
  { k with files := k.files.insert fd file }

/-- Entries of files without a descriptor are removed. -/
def close (k : Kernel δ) (fd : Fd) : Kernel δ :=
  let k := { k with files := k.files.erase fd }
  { k with interests := fun fd' file => if k.isOpen file then k.interests fd' file else none }

def closeAll (k : Kernel δ) (fds : List Fd) : Kernel δ := fds.foldl close k

def put (k : Kernel δ) (fd : Fd) (file : File) (e : Option (Interest δ)) : Kernel δ :=
  { k with interests := fun fd' file' =>
      if fd' = fd ∧ file' = file then e else k.interests fd' file' }

/-- `EPOLL_CTL_ADD`, and whether it succeeded. -/
def add (k : Kernel δ) (fd : Fd) (oneshot : Bool) (data : δ) : Kernel δ × Bool :=
  match k.files.lookup fd with
  | none => (k, false)
  | some file =>
    match k.interests fd file with
    | some _ => (k, false)
    | none => (k.put fd file (some ⟨oneshot, data, true⟩), true)

/-- `EPOLL_CTL_MOD` -/
def modify (k : Kernel δ) (fd : Fd) (oneshot : Bool) (data : δ) : Kernel δ :=
  match k.files.lookup fd with
  | none => k
  | some file =>
    match k.interests fd file with
    | none => k
    | some _ => k.put fd file (some ⟨oneshot, data, true⟩)

/-- `EPOLL_CTL_DEL` -/
def delete (k : Kernel δ) (fd : Fd) : Kernel δ :=
  match k.files.lookup fd with
  | none => k
  | some file => k.put fd file none

/-- `epoll_wait` reports this entry. -/
def report (k : Kernel δ) (fd : Fd) (file : File) : Option (δ × Kernel δ) :=
  match k.interests fd file with
  | none => none
  | some e =>
    if e.armed then some (e.data, k.put fd file (some { e with armed := !e.oneshot })) else none

variable {k : Kernel δ} {fd fd' : Fd} {file file' : File} {e : Interest δ} {fds : List Fd}

theorem isOpen_iff : k.isOpen file = true ↔ ∃ fd, k.files.lookup fd = some file := by
  unfold isOpen
  rw [List.any_eq_true]
  constructor
  · rintro ⟨⟨fd, file'⟩, hmem, hfile⟩
    exact ⟨fd, AList.mem_lookup_iff.mpr (beq_iff_eq.mp hfile ▸ hmem)⟩
  · rintro ⟨fd, hfd⟩
    exact ⟨⟨fd, file⟩, AList.mem_lookup_iff.mp hfd, beq_self_eq_true file⟩

theorem lookup_ne_of_closed (h : k.isOpen file = false) : k.files.lookup fd ≠ some file := by
  intro hfd
  rw [isOpen_iff.mpr ⟨fd, hfd⟩] at h
  cases h

/-! ## Opening and closing -/

@[simp] theorem openFd_interests : (k.openFd fd file).interests = k.interests := rfl

@[simp] theorem openFd_lookup_self : (k.openFd fd file).files.lookup fd = some file :=
  AList.lookup_insert _

theorem openFd_lookup_ne (h : fd' ≠ fd) :
    (k.openFd fd file).files.lookup fd' = k.files.lookup fd' :=
  AList.lookup_insert_ne h

/-- A descriptor that is not in use does not hide another one. -/
theorem openFd_isOpen (hfd : k.files.lookup fd = none) (h : k.isOpen file' = true) :
    (k.openFd fd file).isOpen file' = true := by
  obtain ⟨fd', hfd'⟩ := isOpen_iff.mp h
  refine isOpen_iff.mpr ⟨fd', ?_⟩
  rw [openFd_lookup_ne, hfd']
  rintro rfl
  rw [hfd] at hfd'
  cases hfd'

@[simp] theorem close_lookup_self : (k.close fd).files.lookup fd = none :=
  AList.lookup_erase fd k.files

theorem close_lookup_ne (h : fd' ≠ fd) : (k.close fd).files.lookup fd' = k.files.lookup fd' :=
  AList.lookup_erase_ne h

/-- An entry that is still there was there before, and its file is open. -/
theorem close_interests_eq_some :
    (k.close fd).interests fd' file = some e ↔
      (k.close fd).isOpen file = true ∧ k.interests fd' file = some e := by
  show (if (k.close fd).isOpen file = true then _ else _) = _ ↔ _
  by_cases h : (k.close fd).isOpen file = true
  · rw [if_pos h]
    exact ⟨fun he => ⟨h, he⟩, fun he => he.2⟩
  · rw [if_neg h]
    constructor
    · intro he
      cases he
    · intro he
      exact absurd he.1 h

/-- An entry is kept as long as another descriptor of its file is open. -/
theorem close_interests_of {fd₁ : Fd} (h : k.interests fd₁ file = some e)
    (hfd' : k.files.lookup fd' = some file) (hne : fd' ≠ fd) :
    (k.close fd).interests fd₁ file = some e :=
  close_interests_eq_some.mpr ⟨isOpen_iff.mpr ⟨fd', (close_lookup_ne hne).trans hfd'⟩, h⟩

theorem closeAll_lookup (h : fd ∉ fds) : (k.closeAll fds).files.lookup fd = k.files.lookup fd := by
  induction fds generalizing k with
  | nil => rfl
  | cons fd' fds ih =>
    rw [List.mem_cons, not_or] at h
    show ((k.close fd').closeAll fds).files.lookup fd = _
    rw [ih h.2, close_lookup_ne h.1]

/-- Closing descriptors adds no entry. -/
theorem closeAll_interests (h : (k.closeAll fds).interests fd file = some e) :
    k.interests fd file = some e := by
  induction fds generalizing k with
  | nil => exact h
  | cons fd' fds ih => exact (close_interests_eq_some.mp (ih h)).2

/-- An entry is kept as long as some descriptor of its file is not closed. -/
theorem closeAll_interests_of (h : k.interests fd file = some e)
    (hfd' : k.files.lookup fd' = some file) (hnot : fd' ∉ fds) :
    (k.closeAll fds).interests fd file = some e := by
  induction fds generalizing k with
  | nil => exact h
  | cons fd₁ fds ih =>
    rw [List.mem_cons, not_or] at hnot
    exact ih (close_interests_of h hfd' hnot.1) ((close_lookup_ne hnot.1).trans hfd') hnot.2

/-! ## The interest list -/

@[simp] theorem put_files (x : Option (Interest δ)) : (k.put fd file x).files = k.files := rfl

@[simp] theorem put_self (x : Option (Interest δ)) : (k.put fd file x).interests fd file = x :=
  if_pos ⟨rfl, rfl⟩

theorem put_ne (x : Option (Interest δ)) (h : fd' ≠ fd ∨ file' ≠ file) :
    (k.put fd file x).interests fd' file' = k.interests fd' file' := by
  refine if_neg ?_
  rintro ⟨rfl, rfl⟩
  simp at h

/-- The entries of a kernel have open files. -/
def Sound (k : Kernel δ) : Prop :=
  ∀ fd file e, k.interests fd file = some e → k.isOpen file = true

theorem Sound.new : (new : Kernel δ).Sound := by
  intro fd file e he
  cases he

theorem Sound.no_entry (h : k.Sound) (hfile : k.isOpen file = false) (fd : Fd) :
    k.interests fd file = none := by
  cases he : k.interests fd file with
  | none => rfl
  | some e =>
    rw [h _ _ _ he] at hfile
    cases hfile

theorem Sound.openFd (h : k.Sound) (hfd : k.files.lookup fd = none) : (k.openFd fd file).Sound :=
  fun _ _ _ he => openFd_isOpen hfd (h _ _ _ he)

theorem Sound.closeAll (h : k.Sound) (fds : List Fd) : (k.closeAll fds).Sound := by
  induction fds generalizing k with
  | nil => exact h
  | cons fd fds ih => exact ih fun _ _ _ he => (close_interests_eq_some.mp he).1

theorem Sound.put (h : k.Sound) {x : Option (Interest δ)}
    (hfile : k.isOpen file = true ∨ x = none) : (k.put fd file x).Sound := by
  intro fd' file' e he
  show k.isOpen file' = true
  by_cases hkey : fd' = fd ∧ file' = file
  · obtain ⟨rfl, rfl⟩ := hkey
    rw [put_self] at he
    rcases hfile with hfile | rfl
    · exact hfile
    · cases he
  · rw [put_ne x (by tauto)] at he
    exact h _ _ _ he

/-! ## Deleting an entry -/

@[simp] theorem delete_files : (k.delete fd).files = k.files := by
  unfold delete
  cases k.files.lookup fd with
  | none => rfl
  | some file => rfl

theorem delete_interests_ne (h : fd' ≠ fd) :
    (k.delete fd).interests fd' file = k.interests fd' file := by
  unfold delete
  cases k.files.lookup fd with
  | none => rfl
  | some file' => exact put_ne none (Or.inl h)

theorem delete_interests (h : (k.delete fd).interests fd' file = some e) :
    k.interests fd' file = some e := by
  unfold delete at h
  cases hfd : k.files.lookup fd with
  | none =>
    rw [hfd] at h
    exact h
  | some file' =>
    rw [hfd] at h
    by_cases hkey : fd' = fd ∧ file = file'
    · obtain ⟨rfl, rfl⟩ := hkey
      rw [put_self] at h
      cases h
    · rw [put_ne none (by tauto)] at h
      exact h

theorem Sound.delete (h : k.Sound) (fd : Fd) : (k.delete fd).Sound := by
  intro fd' file e he
  have hopen := h _ _ _ (delete_interests he)
  unfold isOpen at hopen ⊢
  rw [delete_files]
  exact hopen

end Kernel

end Epoll
