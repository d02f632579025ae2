import Dx12Track.Lib.Access

/-!
# The PDB record of a module

`ExtractPdbInfo` of `src/dll/Modules.cpp` walks the debug directory of a module that
the loader has mapped, and copies the GUID, the age and the file name of its first
CodeView record.  Offsets are from the base of the module, and the layouts of the
headers are those of 64-bit images.

* `ntHeaders`, `extractPdbInfo`, `walk` — the code, with every byte it reads.
* `IsRecord`, `MappedImage.Reported` — the record that is found.
* `only_walk` — what the loop reads, by induction on the entries that are left.
* `MappedImage.Contained` — what the loop follows lies in the image.
* `inBounds_iff` — **nothing else is read exactly if that is so**.
-/

namespace Dx12Track

namespace Modules

open Memory

def imageDosSignature : ℕ := 0x5A4D
def imageNtSignature : ℕ := 0x4550
def imageDirectoryEntryDebug : ℕ := 6
def imageDebugTypeCodeview : ℕ := 2

/-- `'SDSR'`. -/
def cvSignature : ℕ := 0x53445352

/-- `sizeof(IMAGE_DEBUG_DIRECTORY)`. -/
def debugDirectoryBytes : ℕ := 28

/-- `sizeof(info.pdb_path)`. -/
def pdbPathBytes : ℕ := 260

/-- What a byte is read as. -/
inductive Piece
  | image
  /-- By the `memcpy` from `cv->PdbFileName`. -/
  | pdbFileName
  deriving DecidableEq

/-! ### The code -/

/-- A `DWORD` of the image. -/
def dword (a : ℕ) : Access Piece ℕ := Access.readLe .image a 4

/-- A `LONG` that is added to a pointer of 64 bits. -/
def signExtend (v : ℕ) : ℕ := if v < 2 ^ 31 then v else v + (2 ^ 64 - 2 ^ 32)

/-- `NtHeaders`. -/
def ntHeaders : Access Piece (Option ℕ) := do
  let magic ← Access.readLe .image 0 2
  if magic ≠ imageDosSignature then return none
  let lfanew ← dword 60
  let nt := signExtend lfanew
  let signature ← dword nt
  if signature ≠ imageNtSignature then return none
  return some nt

structure PdbInfo where
  guid : List UInt8 := List.replicate 16 0
  age : ℕ := 0
  /-- The bytes that are copied to `pdb_path`, which is zero behind them. -/
  pdbPath : List UInt8 := []
  found : Bool := false

/-- `name_max`: an unsigned difference of 64 bits, and no more than there is room for. -/
def nameMax (sizeOfData : ℕ) : ℕ := min ((sizeOfData + (2 ^ 64 - 24)) % 2 ^ 64) (pdbPathBytes - 1)

/-- The body of the loop for the entry at `d`: the record, or `continue`. -/
def extractEntry (d : ℕ) : Access Piece (Option PdbInfo) := do
  let type ← dword (d + 12)
  if type ≠ imageDebugTypeCodeview then return none
  let addressOfRawData ← dword (d + 20)
  if addressOfRawData = 0 then return none
  let sizeOfData ← dword (d + 16)
  if sizeOfData = 0 then return none
  let signature ← dword addressOfRawData
  if signature ≠ cvSignature then return none
  let guid ← Access.read .image (addressOfRawData + 4) 16
  let age ← dword (addressOfRawData + 20)
  let name ← Access.read .pdbFileName (addressOfRawData + 24) (nameMax sizeOfData)
  return some { guid := guid, age := age, pdbPath := name, found := true }

/-- The loop, from the entry at `d` on, with `k` entries left. -/
def walk (d : ℕ) : ℕ → Access Piece PdbInfo
  | 0 => return {}
  | k + 1 => do
    match ← extractEntry d with
    | some info => return info
    | none => walk (d + debugDirectoryBytes) k

/-- `ExtractPdbInfo`. -/
def extractPdbInfo : Access Piece PdbInfo := do
  match ← ntHeaders with
  | none => return {}
  | some nt =>
    let numberOfRvaAndSizes ← dword (nt + 132)
    if numberOfRvaAndSizes ≤ imageDirectoryEntryDebug then return {}
    let virtualAddress ← dword (nt + 184)
    if virtualAddress = 0 then return {}
    let size ← dword (nt + 188)
    if size = 0 then return {}
    walk virtualAddress (size / debugDirectoryBytes)

/-! ### Entries of the debug directory -/

section Entries

variable (m : Memory) (d : ℕ)

/-- A number of the image. -/
def num (a width : ℕ) : ℕ := ofLe (m.read a width)

def entryType : ℕ := num m (d + 12) 4
def sizeOfData : ℕ := num m (d + 16) 4
def addressOfRawData : ℕ := num m (d + 20) 4

/-- A CodeView entry that has data. -/
def IsCodeView : Prop :=
  entryType m d = imageDebugTypeCodeview ∧ addressOfRawData m d ≠ 0 ∧ sizeOfData m d ≠ 0

instance : Decidable (IsCodeView m d) := inferInstanceAs (Decidable (_ ∧ _ ∧ _))

/-- Its data is an `RSDS` record. -/
def IsRecord : Prop := IsCodeView m d ∧ num m (addressOfRawData m d) 4 = cvSignature

instance : Decidable (IsRecord m d) := inferInstanceAs (Decidable (_ ∧ _))

/-- What is reported of it. -/
def recordInfo : PdbInfo where
  guid := m.read (addressOfRawData m d + 4) 16
  age := num m (addressOfRawData m d + 20) 4
  pdbPath := m.read (addressOfRawData m d + 24) (nameMax (sizeOfData m d))
  found := true

/-- What is read of an entry and of its data satisfies `P`. -/
structure EntryTouches (P : Piece → ℕ → Prop) : Prop where
  type : Access.Span P .image (d + 12) 4
  address : entryType m d = imageDebugTypeCodeview → Access.Span P .image (d + 20) 4
  size : entryType m d = imageDebugTypeCodeview → addressOfRawData m d ≠ 0 →
    Access.Span P .image (d + 16) 4
  signature : IsCodeView m d → Access.Span P .image (addressOfRawData m d) 4
  guid : IsRecord m d → Access.Span P .image (addressOfRawData m d + 4) 16
  age : IsRecord m d → Access.Span P .image (addressOfRawData m d + 20) 4
  name : IsRecord m d →
    Access.Span P .pdbFileName (addressOfRawData m d + 24) (nameMax (sizeOfData m d))

end Entries

/-! ### The loop -/

section Loop

variable {m : Memory} {d : ℕ}

@[simp] theorem dword_value (a : ℕ) (m : Memory) : (dword a m).value = num m a 4 := rfl

@[simp] theorem dword_mem (a : ℕ) (m : Memory) : (dword a m).mem = m := rfl

@[simp] theorem only_dword {P : Piece → ℕ → Prop} (a : ℕ) (m : Memory) :
    Access.Only P (dword a) m ↔ Access.Span P .image a 4 := Access.only_readLe _ _ _ _

theorem readsOnly_dword (a : ℕ) : Access.ReadsOnly (dword a) := Access.readsOnly_readLe _ _ _

theorem readsOnly_extractEntry (d : ℕ) : Access.ReadsOnly (extractEntry d) := by
  have hnone : Access.ReadsOnly (return none : Access Piece (Option PdbInfo)) :=
    Access.readsOnly_pure none
  refine (readsOnly_dword _).bind fun type => hnone.ite ?_
  refine (readsOnly_dword _).bind fun address => hnone.ite ?_
  refine (readsOnly_dword _).bind fun size => hnone.ite ?_
  refine (readsOnly_dword _).bind fun signature => hnone.ite ?_
  refine (Access.readsOnly_read _ _ _).bind fun guid => ?_
  refine (readsOnly_dword _).bind fun age => ?_
  exact (Access.readsOnly_read _ _ _).bind fun name => Access.readsOnly_pure _

theorem extractEntry_value (m : Memory) (d : ℕ) :
    (extractEntry d m).value = if IsRecord m d then some (recordInfo m d) else none := by
  unfold extractEntry IsRecord IsCodeView recordInfo entryType addressOfRawData sizeOfData
  by_cases htype : num m (d + 12) 4 = imageDebugTypeCodeview
  · by_cases haddr : num m (d + 20) 4 = 0
    · simp [htype, haddr]
    · by_cases hsize : num m (d + 16) 4 = 0
      · simp [htype, haddr, hsize]
      · by_cases hsig : num m (num m (d + 20) 4) 4 = cvSignature
        · simp [htype, haddr, hsize, hsig]
        · simp [htype, haddr, hsize, hsig]
  · simp [htype]

/-- What is read of an entry. -/
theorem only_extractEntry (P : Piece → ℕ → Prop) (m : Memory) (d : ℕ) :
    Access.Only P (extractEntry d) m ↔ EntryTouches m d P := by
  unfold extractEntry
  simp only [Access.only_bind, Access.only_ite, Access.only_pure, only_dword, Access.only_read]
  simp only [dword_mem, dword_value, implies_true, true_and, and_true, not_not]
  constructor
  · rintro ⟨htype, h⟩
    exact {
      type := htype
      address := fun hcv => (h hcv).1
      size := fun hcv haddr => ((h hcv).2 haddr).1
      signature := fun hcv => (((h hcv.1).2 hcv.2.1).2 hcv.2.2).1
      guid := fun hrec => ((((h hrec.1.1).2 hrec.1.2.1).2 hrec.1.2.2).2 hrec.2).1
      age := fun hrec => ((((h hrec.1.1).2 hrec.1.2.1).2 hrec.1.2.2).2 hrec.2).2.1
      name := fun hrec => ((((h hrec.1.1).2 hrec.1.2.1).2 hrec.1.2.2).2 hrec.2).2.2 }
  · intro h
    refine ⟨h.type, fun hcv => ⟨h.address hcv, fun haddr => ⟨h.size hcv haddr, fun hsize => ?_⟩⟩⟩
    refine ⟨h.signature ⟨hcv, haddr, hsize⟩, fun hsig => ?_⟩
    have hrec : IsRecord m d := ⟨⟨hcv, haddr, hsize⟩, hsig⟩
    exact ⟨h.guid hrec, h.age hrec, h.name hrec⟩

theorem walk_succ_value (m : Memory) (d k : ℕ) : (walk d (k + 1) m).value
    = if IsRecord m d then recordInfo m d else (walk (d + debugDirectoryBytes) k m).value := by
  rw [walk, Access.value_bind, extractEntry_value, readsOnly_extractEntry]
  by_cases h : IsRecord m d
  · rw [if_pos h, if_pos h]
    rfl
  · rw [if_neg h, if_neg h]

theorem only_walk_succ (P : Piece → ℕ → Prop) (m : Memory) (d k : ℕ) :
    Access.Only P (walk d (k + 1)) m ↔ EntryTouches m d P ∧
      (¬IsRecord m d → Access.Only P (walk (d + debugDirectoryBytes) k) m) := by
  rw [walk, Access.only_bind, only_extractEntry, extractEntry_value, readsOnly_extractEntry]
  refine and_congr_right fun _ => ?_
  by_cases h : IsRecord m d
  · rw [if_pos h]
    exact iff_of_true (Access.only_pure _ _) (absurd h)
  · rw [if_neg h]
    exact (imp_iff_right h).symm

/-- The loop gets to the entry `j` of the directory at `d`. -/
def Reached (m : Memory) (d j : ℕ) : Prop := ∀ i < j, ¬IsRecord m (d + debugDirectoryBytes * i)

theorem reached_zero (m : Memory) (d : ℕ) : Reached m d 0 := fun i hi =>
  absurd hi (Nat.not_lt_zero i)

theorem entry_succ (d j : ℕ) : d + debugDirectoryBytes * (j + 1)
    = d + debugDirectoryBytes + debugDirectoryBytes * j := by
  rw [Nat.mul_succ]
  omega

theorem reached_succ (m : Memory) (d j : ℕ) :
    Reached m d (j + 1) ↔ ¬IsRecord m d ∧ Reached m (d + debugDirectoryBytes) j := by
  constructor
  · intro h
    refine ⟨h 0 (Nat.succ_pos j), fun i hi => ?_⟩
    rw [← entry_succ]
    exact h (i + 1) (Nat.succ_lt_succ hi)
  · rintro ⟨h, hrest⟩ i hi
    cases i with
    | zero => exact h
    | succ i =>
      rw [entry_succ]
      exact hrest i (Nat.lt_of_succ_lt_succ hi)

/-- **The loop reads the entries up to the first record, and their data.** -/
theorem only_walk (P : Piece → ℕ → Prop) (m : Memory) (d k : ℕ) :
    Access.Only P (walk d k) m ↔
      ∀ j < k, Reached m d j → EntryTouches m (d + debugDirectoryBytes * j) P := by
  induction k generalizing d with
  | zero => exact iff_of_true (Access.only_pure _ _) fun j hj => absurd hj (Nat.not_lt_zero j)
  | succ k ih =>
    rw [only_walk_succ, ih, Nat.forall_lt_succ_left]
    refine and_congr (imp_iff_right (reached_zero m d)).symm ?_
    constructor
    · intro h j hj hreached
      rw [reached_succ] at hreached
      rw [entry_succ]
      exact h hreached.1 j hj hreached.2
    · intro h hd j hj hreached
      rw [← entry_succ]
      exact h j hj ((reached_succ m d j).mpr ⟨hd, hreached⟩)

/-- **The first record is the one that is reported.** -/
theorem walk_value_of_record {m : Memory} {d j k : ℕ} (hj : j < k) (hreached : Reached m d j)
    (h : IsRecord m (d + debugDirectoryBytes * j)) :
    (walk d k m).value = recordInfo m (d + debugDirectoryBytes * j) := by
  induction k generalizing d j with
  | zero => omega
  | succ k ih =>
    rw [walk_succ_value]
    cases j with
    | zero => exact if_pos h
    | succ j =>
      rw [reached_succ] at hreached
      rw [entry_succ] at h ⊢
      rw [if_neg hreached.1]
      exact ih (Nat.lt_of_succ_lt_succ hj) hreached.2 h

/-- Nothing is reported without one. -/
theorem walk_value_of_none {m : Memory} {d k : ℕ} (h : Reached m d k) :
    (walk d k m).value = {} := by
  induction k generalizing d with
  | zero => rfl
  | succ k ih =>
    rw [reached_succ] at h
    rw [walk_succ_value, if_neg h.1]
    exact ih h.2

end Loop

/-! ### Images -/

/-- A module as the loader has mapped it; what is behind its headers is arbitrary. -/
structure MappedImage where
  mem : Memory
  sizeOfImage : ℕ
  sizeOfImage_lt : sizeOfImage < 2 ^ 32
  magic : num mem 0 2 = imageDosSignature
  signature : num mem (signExtend (num mem 60 4)) 4 = imageNtSignature
  /-- The `IMAGE_NT_HEADERS` are inside. -/
  headers : signExtend (num mem 60 4) + 264 ≤ sizeOfImage

namespace MappedImage

variable (img : MappedImage)

def nt : ℕ := signExtend (num img.mem 60 4)

/-- The RVA of the debug directory. -/
def directory : ℕ := num img.mem (img.nt + 184) 4

/-- There is one. -/
def HasDirectory : Prop :=
  imageDirectoryEntryDebug < num img.mem (img.nt + 132) 4 ∧ img.directory ≠ 0 ∧
    num img.mem (img.nt + 188) 4 ≠ 0

instance : Decidable img.HasDirectory := inferInstanceAs (Decidable (_ ∧ _ ∧ _))

/-- The number of its entries. -/
def entries : ℕ :=
  if img.HasDirectory then num img.mem (img.nt + 188) 4 / debugDirectoryBytes else 0

/-- The entry `j`. -/
def entry (j : ℕ) : ℕ := img.directory + debugDirectoryBytes * j

/-- The record that is reported is that of the entry `j`. -/
def Reported (j : ℕ) : Prop :=
  j < img.entries ∧ Reached img.mem img.directory j ∧ IsRecord img.mem (img.entry j)

theorem ntHeaders_value : (ntHeaders img.mem).value = some img.nt := by
  have hmagic : num img.mem 0 2 = imageDosSignature := img.magic
  have hsig : num img.mem (signExtend (num img.mem 60 4)) 4 = imageNtSignature := img.signature
  unfold num at hmagic
  unfold ntHeaders
  simp [hmagic, hsig, nt]

theorem readsOnly_ntHeaders : Access.ReadsOnly ntHeaders := by
  have hnone : Access.ReadsOnly (return none : Access Piece (Option ℕ)) :=
    Access.readsOnly_pure none
  refine (Access.readsOnly_readLe _ _ _).bind fun magic => hnone.ite ?_
  refine (readsOnly_dword _).bind fun lfanew => ?_
  refine (readsOnly_dword _).bind fun signature => hnone.ite ?_
  exact Access.readsOnly_pure _

/-- The loop gets the directory of the image. -/
theorem extractPdbInfo_value :
    (extractPdbInfo img.mem).value = (walk img.directory img.entries img.mem).value := by
  unfold extractPdbInfo
  rw [Access.value_bind, img.ntHeaders_value, readsOnly_ntHeaders]
  by_cases hnumber : num img.mem (img.nt + 132) 4 ≤ imageDirectoryEntryDebug
  · have hno : ¬img.HasDirectory := fun h => absurd h.1 (Nat.not_lt.mpr hnumber)
    simp [hnumber, entries, hno, walk]
  · by_cases haddr : img.directory = 0
    · have hno : ¬img.HasDirectory := fun h => h.2.1 haddr
      unfold directory at haddr
      simp [hnumber, haddr, entries, hno, walk]
    · by_cases hsize : num img.mem (img.nt + 188) 4 = 0
      · have hno : ¬img.HasDirectory := fun h => h.2.2 hsize
        unfold directory at haddr
        simp [hnumber, haddr, hsize, entries, hno, walk]
      · have hyes : img.HasDirectory := ⟨Nat.not_le.mp hnumber, haddr, hsize⟩
        unfold directory at haddr
        simp [hnumber, haddr, hsize, entries, hyes, directory]

variable {img} in
/-- The headers are inside the image, so that only the loop can leave it. -/
theorem only_extractPdbInfo {P : Piece → ℕ → Prop}
    (hP : ∀ i < img.sizeOfImage, P .image i) :
    Access.Only P extractPdbInfo img.mem ↔
      Access.Only P (walk img.directory img.entries) img.mem := by
  have hheaders := img.headers
  have hspan : ∀ {a n}, a + n ≤ img.nt + 264 → Access.Span P .image a n := by
    intro a n ha i _ hi
    refine hP i ?_
    unfold nt at ha
    omega
  have hnt : Access.Only P ntHeaders img.mem := by
    unfold ntHeaders
    simp only [Access.only_bind, Access.only_ite, Access.only_pure, only_dword,
      Access.only_readLe, implies_true, true_and, and_true]
    refine ⟨hspan (by omega), fun _ => ⟨hspan (by omega), hspan ?_⟩⟩
    show img.nt + 4 ≤ img.nt + 264
    omega
  unfold extractPdbInfo
  rw [Access.only_bind, img.ntHeaders_value, readsOnly_ntHeaders]
  simp only [Access.only_bind, Access.only_ite, Access.only_pure, only_dword]
  simp only [dword_mem, dword_value, implies_true, true_and, Nat.not_le]
  by_cases h : img.HasDirectory
  · rw [entries, if_pos h]
    constructor
    · intro hall
      exact ((hall.2.2 h.1).2 h.2.1).2 h.2.2
    · intro hwalk
      exact ⟨hnt, hspan (by omega), fun _ => ⟨hspan (by omega), fun _ => ⟨hspan (by omega),
        fun _ => hwalk⟩⟩⟩
  · rw [entries, if_neg h]
    refine iff_of_true ⟨hnt, hspan (by omega), fun hnumber => ⟨hspan (by omega), fun haddr =>
      ⟨hspan (by omega), fun hsize => absurd ⟨hnumber, haddr, hsize⟩ h⟩⟩⟩ ?_
    exact Access.only_pure _ _

variable {img} in
/-- **What is reported is the first record.** -/
theorem extractPdbInfo_of_reported {j : ℕ} (h : img.Reported j) :
    (extractPdbInfo img.mem).value = recordInfo img.mem (img.entry j) := by
  rw [extractPdbInfo_value]
  exact walk_value_of_record h.1 h.2.1 h.2.2

theorem found_iff : (extractPdbInfo img.mem).value.found = true ↔ ∃ j, img.Reported j := by
  constructor
  · intro hfound
    by_contra hnone
    -- without a record each entry is reached, by strong induction on it
    have hreached : Reached img.mem img.directory img.entries := by
      intro i
      induction i using Nat.strongRecOn with
      | ind i ih =>
        intro hi hrec
        exact hnone ⟨i, hi, fun k hk => ih k hk (Nat.lt_trans hk hi), hrec⟩
    rw [extractPdbInfo_value, walk_value_of_none hreached] at hfound
    cases hfound
  · rintro ⟨j, hj⟩
    rw [extractPdbInfo_of_reported hj]
    rfl

/-! ### Bounds -/

/-- Nothing outside the image is read, and the path of the record that is reported is not read
behind its data. -/
structure InBounds : Prop where
  reads : Access.Only (fun _ a => a < img.sizeOfImage) extractPdbInfo img.mem
  path : ∀ j, img.Reported j →
    Access.Only (fun piece a => piece = .pdbFileName →
      a < addressOfRawData img.mem (img.entry j) + sizeOfData img.mem (img.entry j))
      extractPdbInfo img.mem

/-- The entry at `d`, as far as it is looked at, and what it leads to lie in the image. -/
structure EntryContained (d : ℕ) : Prop where
  type : d + 16 ≤ img.sizeOfImage
  entry : entryType img.mem d = imageDebugTypeCodeview → d + 24 ≤ img.sizeOfImage
  signature : IsCodeView img.mem d → addressOfRawData img.mem d + 4 ≤ img.sizeOfImage
  /-- The data of a record has room for its members, and its path for what is copied of it. -/
  record : IsRecord img.mem d → 24 ≤ sizeOfData img.mem d ∧
    addressOfRawData img.mem d + min (sizeOfData img.mem d) 283 ≤ img.sizeOfImage

/-- This holds of the entries up to the first record. -/
def Contained : Prop :=
  ∀ j < img.entries, Reached img.mem img.directory j → img.EntryContained (img.entry j)

end MappedImage

theorem nameMax_of_le {n : ℕ} (h : 24 ≤ n) (hn : n < 2 ^ 32) : nameMax n = min (n - 24) 259 := by
  unfold nameMax pdbPathBytes
  omega

/-- The difference wraps around: all the room is filled. -/
theorem nameMax_of_lt {n : ℕ} (h : n < 24) : nameMax n = 259 := by
  unfold nameMax pdbPathBytes
  omega

theorem num_lt (m : Memory) (a : ℕ) : num m a 4 < 2 ^ 32 := by
  have hlt := ofLe_lt (m.read a 4)
  rwa [length_read] at hlt

namespace MappedImage

variable {img : MappedImage}

/-- What is read of an entry is inside, and so is the path in its data. -/
theorem entryTouches_iff (d : ℕ) :
    img.EntryContained d ↔ EntryTouches img.mem d (fun _ a => a < img.sizeOfImage) ∧
      (IsRecord img.mem d → 24 ≤ sizeOfData img.mem d) := by
  have hsize : sizeOfData img.mem d < 2 ^ 32 := num_lt img.mem (d + 16)
  constructor
  · intro h
    refine ⟨?_, fun hrec => (h.record hrec).1⟩
    have hrecord : ∀ hrec : IsRecord img.mem d,
        addressOfRawData img.mem d + 24 + nameMax (sizeOfData img.mem d) ≤ img.sizeOfImage := by
      intro hrec
      obtain ⟨hle, hin⟩ := h.record hrec
      rw [nameMax_of_le hle hsize]
      omega
    exact {
      type := Access.span_of_le h.type
      address := fun hcv => Access.span_of_le (h.entry hcv)
      size := fun hcv _ => Access.span_of_le (Nat.le_trans (by omega) (h.entry hcv))
      signature := fun hcv => Access.span_of_le (h.signature hcv)
      guid := fun hrec => Access.span_of_le (Nat.le_trans (by omega) (hrecord hrec))
      age := fun hrec => Access.span_of_le (Nat.le_trans (by omega) (hrecord hrec))
      name := fun hrec => Access.span_of_le (hrecord hrec) }
  · rintro ⟨h, h24⟩
    constructor
    · have hend := (Access.span_lt (by decide)).mp h.type
      omega
    · intro hcv
      have hend := (Access.span_lt (by decide)).mp (h.address hcv)
      omega
    · intro hcv
      exact (Access.span_lt (by decide)).mp (h.signature hcv)
    · intro hrec
      have hle := h24 hrec
      have hage := (Access.span_lt (by decide)).mp (h.age hrec)
      have hname := h.name hrec
      rw [nameMax_of_le hle hsize] at hname
      refine ⟨hle, ?_⟩
      -- a path of no bytes says nothing about its place, but the age stands before it
      by_cases hnil : sizeOfData img.mem d = 24
      · omega
      · have hlast := (Access.span_lt (by omega)).mp hname
        omega

/-- No other record is reported. -/
theorem Reported.eq {i j : ℕ} (hj : img.Reported j) (hi : Reached img.mem img.directory i)
    (hrec : IsRecord img.mem (img.entry i)) : i = j := by
  rcases Nat.lt_trichotomy i j with hlt | heq | hlt
  · exact absurd hrec (hj.2.1 i hlt)
  · exact heq
  · exact absurd hj.2.2 (hi j hlt)

/-- The path of a record is not read behind its data exactly if there is room for its members. -/
theorem path_iff {j : ℕ} (hj : img.Reported j) :
    Access.Only (fun piece a => piece = .pdbFileName →
      a < addressOfRawData img.mem (img.entry j) + sizeOfData img.mem (img.entry j))
      extractPdbInfo img.mem ↔ 24 ≤ sizeOfData img.mem (img.entry j) := by
  have hsize : sizeOfData img.mem (img.entry j) < 2 ^ 32 := num_lt img.mem (img.entry j + 16)
  have himage : ∀ {a n}, Access.Span (fun piece a => piece = Piece.pdbFileName →
      a < addressOfRawData img.mem (img.entry j) + sizeOfData img.mem (img.entry j))
        .image a n := by
    intro a n i _ _ h
    cases h
  rw [only_extractPdbInfo (fun i _ h => nomatch h), only_walk]
  constructor
  · intro h
    by_contra hlt
    have hname := (h j hj.1 hj.2.1).name hj.2.2
    rw [← entry, nameMax_of_lt (Nat.not_le.mp hlt)] at hname
    have hfirst := hname _ (Nat.le_refl _) (by omega) rfl
    omega
  · intro hle i hi hreached
    refine ⟨himage, fun _ => himage, fun _ _ => himage, fun _ => himage, fun _ => himage,
      fun _ => himage, ?_⟩
    intro hrec a _ ha _
    rw [hj.eq hreached hrec, ← entry, nameMax_of_le hle hsize] at ha
    omega

/-- **Nothing outside the image is read, and no path behind its record, exactly if the entries up
to the first record and their data lie in the image and that record is not too short.** -/
theorem inBounds_iff (img : MappedImage) : img.InBounds ↔ img.Contained := by
  have hcontained : img.Contained ↔
      (∀ j < img.entries, Reached img.mem img.directory j →
        EntryTouches img.mem (img.entry j) fun _ a => a < img.sizeOfImage) ∧
      ∀ j, img.Reported j → 24 ≤ sizeOfData img.mem (img.entry j) := by
    constructor
    · intro h
      exact ⟨fun j hj hreached => ((entryTouches_iff _).mp (h j hj hreached)).1,
        fun j hj => ((entryTouches_iff _).mp (h j hj.1 hj.2.1)).2 hj.2.2⟩
    · rintro ⟨h, h24⟩ j hj hreached
      exact (entryTouches_iff _).mpr ⟨h j hj hreached, fun hrec => h24 j ⟨hj, hreached, hrec⟩⟩
  have hreads : Access.Only (fun _ a => a < img.sizeOfImage) extractPdbInfo img.mem ↔
      ∀ j < img.entries, Reached img.mem img.directory j →
        EntryTouches img.mem (img.entry j) fun _ a => a < img.sizeOfImage := by
    rw [only_extractPdbInfo fun _ hi => hi, only_walk]
    rfl
  rw [hcontained]
  constructor
  · intro h
    exact ⟨hreads.mp h.reads, fun j hj => (path_iff hj).mp (h.path j hj)⟩
  · rintro ⟨h, h24⟩
    exact ⟨hreads.mpr h, fun j hj => (path_iff hj).mpr (h24 j hj)⟩

/-- One CodeView entry at 512, whose data at 768 has 8 bytes. -/
def shortRecord : MappedImage where
  mem := Memory.write (fun _ => 0) 0 (le 2 imageDosSignature)
    |>.write 60 (le 4 64)
    |>.write 64 (le 4 imageNtSignature)
    |>.write 196 (le 4 16)
    |>.write 248 (le 4 512)
    |>.write 252 (le 4 28)
    |>.write 524 (le 4 imageDebugTypeCodeview)
    |>.write 528 (le 4 8)
    |>.write 532 (le 4 768)
    |>.write 768 (le 4 cvSignature)
  sizeOfImage := 4096
  sizeOfImage_lt := by decide
  magic := by decide
  signature := by decide
  headers := by decide

theorem reported_shortRecord : shortRecord.Reported 0 :=
  ⟨by decide, reached_zero _ _, by decide⟩

/-- 259 bytes are copied from behind the record. -/
theorem not_inBounds_shortRecord : ¬∀ img : MappedImage, img.InBounds := by
  intro h
  have hle := (path_iff reported_shortRecord).mp ((h shortRecord).path 0 reported_shortRecord)
  exact absurd hle (by decide)

end MappedImage

end Modules

end Dx12Track
