/-
BenchConfig.FileSystem.Basic — a tree of directories as a finite map.

Every directory, file, link and device has a location, the names on the
way down from the root. A file system maps locations to nodes. The root
is a directory of every file system and is not kept in the map.

* `get?` is the view: what is at a location. `insert` and `erase` are
  described by what they do to it (`get?_insert`, `get?_erase`).
* `names` lists a directory in the order of the octets of the names. It
  depends on the view alone (`mem_names`, `names_sorted`).
-/
import BenchConfig.Path.Basic

namespace BenchConfig

/-- The name of an entry of a directory. -/
abbrev Name := Bytes

/-- The names on the way down from the root. -/
abbrev Location := List Name

/-- The devices that the library knows of. -/
inductive Device where
  /-- It takes everything and keeps nothing. -/
  | sink
  /-- It has room for nothing. -/
  | full
  deriving DecidableEq, Repr

/-- The device does not refuse the data. -/
def Device.Takes (data : Bytes) : Device → Prop
  | .sink => True
  | .full => data = []

instance (data : Bytes) : (device : Device) → Decidable (device.Takes data)
  | .sink => inferInstanceAs (Decidable True)
  | .full => inferInstanceAs (Decidable (data = []))

/-- What can be at a location. -/
inductive Node where
  | directory
  | file (content : Bytes)
  /-- A symbolic link; the path is read from the directory of the link. -/
  | link (target : Path UInt8)
  | device (device : Device)
  deriving DecidableEq, Repr

/-- A map from locations to nodes. Of several nodes for one location the
first one counts. -/
structure FileSystem where
  nodes : List (Location × Node) := []
  deriving Repr

namespace FileSystem

/-! ## 1. The view -/

/-- The first node that a list has for a location. -/
def find? (l : Location) : List (Location × Node) → Option Node
  | [] => none
  | (l', node) :: rest => if l = l' then some node else find? l rest

/-- What is at a location. -/
def get? (fs : FileSystem) (l : Location) : Option Node :=
  if l = [] then some .directory else find? l fs.nodes

/-- A location that holds a directory. -/
def IsDirectory (fs : FileSystem) (l : Location) : Prop :=
  fs.get? l = some .directory

instance (fs : FileSystem) (l : Location) : Decidable (fs.IsDirectory l) :=
  inferInstanceAs (Decidable (_ = _))

/-! ## 2. Changes -/

/-- The same nodes, except that `node` is at `l`. -/
def insert (fs : FileSystem) (l : Location) (node : Node) : FileSystem :=
  ⟨(l, node) :: fs.nodes⟩

/-- The same nodes, except that nothing is at `l`. -/
def erase (fs : FileSystem) (l : Location) : FileSystem :=
  ⟨fs.nodes.filter fun entry => entry.1 ≠ l⟩

/-- The same nodes, except that nothing is at `l` or below. -/
def eraseTree (fs : FileSystem) (l : Location) : FileSystem :=
  ⟨fs.nodes.filter fun entry => ¬ l <+: entry.1⟩

theorem get?_insert (fs : FileSystem) {l : Location} (hl : l ≠ []) (node : Node)
    (l' : Location) :
    (fs.insert l node).get? l' = if l' = l then some node else fs.get? l' := by
  by_cases h : l' = l
  · subst h; simp [get?, insert, find?, hl]
  · simp [get?, insert, find?, h]

theorem find?_filter_self (l : Location) (nodes : List (Location × Node)) :
    find? l (nodes.filter fun entry => entry.1 ≠ l) = none := by
  induction nodes with
  | nil => rfl
  | cons entry rest ih =>
    by_cases h : entry.1 = l
    · simpa [h] using ih
    · simpa [h, find?, Ne.symm h] using ih

theorem find?_filter_of_ne {l l' : Location} (h : l' ≠ l) (nodes : List (Location × Node)) :
    find? l' (nodes.filter fun entry => entry.1 ≠ l) = find? l' nodes := by
  induction nodes with
  | nil => rfl
  | cons entry rest ih =>
    by_cases he : entry.1 = l
    · have : l' ≠ entry.1 := he ▸ h
      simpa [he, find?, h] using ih
    · simp only [ne_eq, decide_not] at ih
      simp [he, find?, ih]

theorem get?_erase (fs : FileSystem) {l : Location} (hl : l ≠ []) (l' : Location) :
    (fs.erase l).get? l' = if l' = l then none else fs.get? l' := by
  by_cases h : l' = l
  · subst h
    simpa [get?, erase, hl] using find?_filter_self l' fs.nodes
  · simp only [get?, erase, h, if_false, find?_filter_of_ne h]

/-! ## 3. Listing a directory -/

/-- The name under which a directory has an entry, if the location is
the location of one. -/
def childName? (directory l : Location) : Option Name :=
  if l.dropLast = directory then l.getLast? else none

/-- A sorted list with one more name; a name that is there already is
not added. -/
def insertName (n : Name) : List Name → List Name
  | [] => [n]
  | m :: rest =>
    if n = m then m :: rest
    else if n < m then n :: m :: rest
    else m :: insertName n rest

/-- The names of the entries of a directory, sorted by octets. -/
def names (fs : FileSystem) (directory : Location) : List Name :=
  (fs.nodes.filterMap fun entry => childName? directory entry.1).foldr insertName []

theorem mem_insertName {a n : Name} {ns : List Name} :
    a ∈ insertName n ns ↔ a = n ∨ a ∈ ns := by
  induction ns with
  | nil => simp [insertName]
  | cons m rest ih =>
    unfold insertName
    split
    · next h => subst h; simp
    · split
      · simp
      · simp only [List.mem_cons, ih]; grind

theorem childName?_eq_some {directory l : Location} {n : Name} :
    childName? directory l = some n ↔ l = directory ++ [n] := by
  unfold childName?
  constructor
  · intro h
    split at h
    · next hd =>
      have hne : l ≠ [] := by rintro rfl; simp at h
      rw [List.getLast?_eq_some_getLast hne, Option.some.injEq] at h
      rw [← hd, ← h, List.dropLast_concat_getLast]
    · cases h
  · rintro rfl; simp

theorem mem_foldr_insertName {a : Name} {ns : List Name} :
    a ∈ ns.foldr insertName [] ↔ a ∈ ns := by
  induction ns with
  | nil => simp
  | cons m rest ih => simp [mem_insertName, ih]

theorem find?_isSome_iff {l : Location} {nodes : List (Location × Node)} :
    (find? l nodes).isSome ↔ ∃ entry ∈ nodes, entry.1 = l := by
  induction nodes with
  | nil => simp [find?]
  | cons entry rest ih =>
    by_cases h : l = entry.1
    · simp [find?, h]
    · simp [find?, h, ih, Ne.symm h]

/-- A directory lists the names at which something is. -/
theorem mem_names {fs : FileSystem} {directory : Location} {n : Name} :
    n ∈ fs.names directory ↔ (fs.get? (directory ++ [n])).isSome := by
  rw [names, mem_foldr_insertName]
  simp only [List.mem_filterMap, childName?_eq_some, get?, List.append_eq_nil_iff,
    List.cons_ne_nil, and_false, if_false, find?_isSome_iff]

theorem insertName_sorted {n : Name} {ns : List Name} (h : ns.Pairwise (· < ·)) :
    (insertName n ns).Pairwise (· < ·) := by
  induction ns with
  | nil => simp [insertName]
  | cons m rest ih =>
    rw [List.pairwise_cons] at h
    unfold insertName
    split
    · exact List.pairwise_cons.2 h
    · next hne =>
      split
      · next hlt =>
        refine List.pairwise_cons.2 ⟨?_, List.pairwise_cons.2 h⟩
        intro a ha
        rcases List.mem_cons.1 ha with rfl | ha
        · exact hlt
        · exact List.lt_trans hlt (h.1 a ha)
      · next hnlt =>
        refine List.pairwise_cons.2 ⟨?_, ih h.2⟩
        intro a ha
        rcases mem_insertName.1 ha with rfl | ha
        · rcases Std.lt_trichotomy m a with hlt | heq | hgt
          · exact hlt
          · exact absurd heq.symm hne
          · exact absurd hgt hnlt
        · exact h.1 a ha

/-- A listing is strictly increasing, so it names no entry twice. -/
theorem names_sorted (fs : FileSystem) (directory : Location) :
    (fs.names directory).Pairwise (· < ·) := by
  unfold names
  induction fs.nodes.filterMap fun entry => childName? directory entry.1 with
  | nil => simp
  | cons m rest ih => exact insertName_sorted ih

end FileSystem

end BenchConfig
