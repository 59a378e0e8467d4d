/-
BenchConfig.Proofs.FileSystem.Handle — writing a file step by step.

`FileSystem.writeOn` is one step. For the operating system it is several: a
file is opened, which makes it or empties it, and then the data comes in
pieces, each of which is put behind those before it. Between the steps
the file system shows neither what was there before nor what will be
there in the end, and a step may fail when others have been taken.

`writeInPiecesOn` takes these steps one by one. It comes to what `writeOn`
says, however the data is cut and whatever room the disk has
(`agrees_writeOn`): up to the first fault the file holds the pieces so far,
and there was room for all of them.

On a disk that takes everything, nothing has happened yet if a step fails
(`writeInPieces_of_write_eq_error`): opening fails before anything is made
or emptied, and what fails later is a device, which keeps nothing.
-/
import BenchConfig.Proofs.FileSystem.Write

namespace BenchConfig.FileSystem

/-! ## 1. The steps -/

/-- The content of the file at a location, and nothing if no file is
there. -/
def contentAt (fs : FileSystem) (l : Location) : Bytes :=
  match fs.get? l with
  | some (.file content) => content
  | _ => []

/-- Opens what a path leads to. A file is made, or emptied if it is there
already. -/
def openFile (fs : FileSystem) (cwd : Location) (p : Path UInt8) :
    Except Fault Handle × FileSystem :=
  match fs.handle cwd p with
  | .error fault => (.error fault, fs)
  | .ok (.file l) => (.ok (.file l), fs.insert l (.file []))
  | .ok (.device device) => (.ok (.device device), fs)

/-- Puts one piece behind what is there already, as far as there is room. -/
def put (disk : Disk) (fs : FileSystem) (data : Bytes) :
    Handle → Except Fault Unit × FileSystem
  | .file l =>
    let content := fs.contentAt l ++ data
    (if disk.Takes content then .ok () else .error disk.fault,
     fs.insert l (.file (disk.keep content)))
  | .device .sink => (.ok (), fs)
  | .device .full => (if data = [] then .ok () else .error .noSpace, fs)

/-- Puts the pieces in order, up to the first fault. -/
def putAll (disk : Disk) (h : Handle) :
    FileSystem → List Bytes → Except Fault Unit × FileSystem
  | fs, [] => (.ok (), fs)
  | fs, data :: rest =>
    match fs.put disk data h with
    | (.error fault, fs') => (.error fault, fs')
    | (.ok (), fs') => putAll disk h fs' rest

/-- Opens what a path leads to and puts the pieces there. -/
def writeInPiecesOn (disk : Disk) (fs : FileSystem) (cwd : Location) (p : Path UInt8)
    (pieces : List Bytes) : Except Fault Unit × FileSystem :=
  match fs.openFile cwd p with
  | (.error fault, fs') => (.error fault, fs')
  | (.ok h, fs') => fs'.putAll disk h pieces

/-- The same on a disk that takes everything. -/
def writeInPieces (fs : FileSystem) (cwd : Location) (p : Path UInt8) (pieces : List Bytes) :
    Except Fault Unit × FileSystem :=
  fs.writeInPiecesOn .unlimited cwd p pieces

/-! ## 2. Putting -/

namespace Disk

variable {disk : Disk} {x : Bytes}

theorem takes_nil (disk : Disk) : disk.Takes [] := by
  obtain ⟨_ | room, fault⟩ := disk
  · trivial
  · exact Nat.zero_le room

theorem not_takes_append (h : ¬ disk.Takes x) (y : Bytes) : ¬ disk.Takes (x ++ y) := by
  obtain ⟨_ | room, fault⟩ := disk
  · exact absurd trivial h
  · simp only [Takes, List.length_append] at h ⊢
    omega

/-- A disk that has no room for the beginning keeps nothing behind it. -/
theorem keep_append_of_not_takes (h : ¬ disk.Takes x) (y : Bytes) :
    disk.keep (x ++ y) = disk.keep x := by
  obtain ⟨_ | room, fault⟩ := disk
  · exact absurd trivial h
  · simp only [Takes, Nat.not_le] at h
    exact List.take_append_of_le_length h.le

end Disk

/-- A file takes the pieces as if they were one, behind what it has. -/
theorem agrees_putAll_file {l : Location} (hl : l ≠ []) (disk : Disk) (pieces : List Bytes) :
    ∀ (fs : FileSystem) (old : Bytes), fs.get? l = some (.file old) → disk.Takes old →
      Agrees (fs.putAll disk (.file l) pieces)
        ((Handle.file l).outcome disk (old ++ pieces.flatten),
         fs.pour disk (old ++ pieces.flatten) (.file l)) := by
  induction pieces with
  | nil =>
    intro fs old hold htakes
    rw [List.flatten_nil, List.append_nil, Handle.outcome, if_pos htakes, pour,
      Disk.keep_of_takes htakes]
    refine ⟨rfl, alike_of_get? fun l' => ?_⟩
    rw [get?_insert _ hl, putAll]
    split
    · next heq => rw [heq, hold]
    · rfl
  | cons data rest ih =>
    intro fs old hold _
    have hput : fs.put disk data (.file l)
        = ((Handle.file l).outcome disk (old ++ data), fs.pour disk (old ++ data) (.file l)) := by
      rw [put, contentAt, hold]
      rfl
    rw [putAll, hput, List.flatten_cons, ← List.append_assoc, Handle.outcome]
    by_cases htakes : disk.Takes (old ++ data)
    · rw [if_pos htakes, pour, Disk.keep_of_takes htakes]
      have hnew : (fs.insert l (.file (old ++ data))).get? l = some (.file (old ++ data)) := by
        rw [get?_insert _ hl, if_pos rfl]
      obtain ⟨houtcome, halike⟩ := ih _ _ hnew htakes
      exact ⟨houtcome, halike.trans (.insert_insert fs hl _ _)⟩
    · -- the piece did not fit, so no later one would have
      rw [if_neg htakes, Handle.outcome, if_neg (Disk.not_takes_append htakes _), pour, pour,
        Disk.keep_append_of_not_takes htakes]
      exact .refl _

/-- A device changes nothing, and it fails if it refuses the data. -/
theorem putAll_device (disk : Disk) (fs : FileSystem) (device : Device) (pieces : List Bytes) :
    fs.putAll disk (.device device) pieces
      = ((Handle.device device).outcome disk pieces.flatten, fs) := by
  induction pieces with
  | nil => cases device <;> rfl
  | cons data rest ih =>
    cases device with
    | sink => exact ih
    | full =>
      by_cases hdata : data = []
      · subst hdata
        exact ih
      · simp [putAll, put, Handle.outcome, Device.Takes, hdata]

/-! ## 3. Opening and putting -/

section

variable {disk : Disk} {a : FileSystem} {cwd : Location} {p : Path UInt8} {pieces : List Bytes}

/-- Where no file is opened there is nothing between the steps. -/
theorem writeInPiecesOn_of_handle_ne (hnot : ∀ l, a.handle cwd p ≠ .ok (.file l)) :
    a.writeInPiecesOn disk cwd p pieces = a.writeOn disk cwd p pieces.flatten := by
  unfold writeInPiecesOn openFile writeOn
  cases hhandle : a.handle cwd p with
  | error fault => rfl
  | ok h =>
    cases h with
    | file l => exact absurd hhandle (hnot l)
    | device device => exact putAll_device disk a device pieces

theorem agrees_writeInPiecesOn_file {d : Location} {n : Name}
    (hhandle : a.handle cwd p = .ok (.file (d ++ [n]))) :
    Agrees (a.writeInPiecesOn disk cwd p pieces) (a.writeOn disk cwd p pieces.flatten) := by
  have hne : d ++ [n] ≠ [] := List.concat_ne_nil n d
  have hempty : (a.insert (d ++ [n]) (.file [])).get? (d ++ [n]) = some (.file []) := by
    rw [get?_insert _ hne, if_pos rfl]
  obtain ⟨houtcome, halike⟩ := agrees_putAll_file hne disk pieces _ [] hempty disk.takes_nil
  simp only [writeInPiecesOn, openFile, writeOn, hhandle]
  exact ⟨houtcome, halike.trans (.insert_insert a hne _ _)⟩

end

/-- Writing in pieces comes to the same as writing at once. -/
theorem agrees_writeOn (disk : Disk) (a : FileSystem) (cwd : Location) (p : Path UInt8)
    (pieces : List Bytes) :
    Agrees (a.writeInPiecesOn disk cwd p pieces) (a.writeOn disk cwd p pieces.flatten) := by
  by_cases hfile : ∃ l, a.handle cwd p = .ok (.file l)
  · obtain ⟨l, hhandle⟩ := hfile
    obtain ⟨d, n, -, hopens⟩ := handle_eq_ok_iff.mp hhandle
    cases hopens
    exact agrees_writeInPiecesOn_file hhandle
  · rw [writeInPiecesOn_of_handle_ne (not_exists.mp hfile)]
    exact .refl _

/-- On a disk that takes everything, a fault leaves the files
themselves, and not only files that are alike. -/
theorem writeInPieces_of_write_eq_error {a : FileSystem} {cwd : Location} {p : Path UInt8}
    {pieces : List Bytes} {fault : Fault} (h : a.write cwd p pieces.flatten = .error fault) :
    a.writeInPieces cwd p pieces = (.error fault, a) := by
  have houtcome := write_eq_error_iff.mp h
  have hnot : ∀ l, a.handle cwd p ≠ .ok (.file l) := by
    intro l hhandle
    rw [writeOn_of_handle_eq_ok hhandle] at houtcome
    cases houtcome
  rw [writeInPieces, writeInPiecesOn_of_handle_ne hnot]
  exact Prod.ext houtcome (eq_of_writeOn_eq_error (Disk.takes_unlimited _) (Prod.ext houtcome rfl))

end BenchConfig.FileSystem
