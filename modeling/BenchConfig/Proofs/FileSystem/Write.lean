/-
BenchConfig.Proofs.FileSystem.Write — what writing a file changes, and
what it leaves as it was.

What a write opens is known from the entry it arrives at
(`handle_eq_ok_iff`): the file that is or can be there, or a device. All
that can come of the write is then said once (`writeOn_cases`), and the
rest follows. Only the disk decides whether the data is there in the end,
so most laws are laws of every disk.

* `Filled` is the change: one file has the data as its whole content, and
  every other location holds what it held. Listings change in one name
  at most (`Filled.names_eq`, `Filled.names_of_ne`).
* A filled entry was free or a file, so directories and links are the
  same (`Filled.sameWays`), and every path leads where it led. Hence what
  was written is read back (`read_of_filled`) and nothing else can be
  (`eq_of_writeOn_of_read`), and a later write to the same path opens the
  same file and leaves nothing of the earlier one (`writeOn_writeOn`).
* A write to another entry opens what it opens alone, so two writes to
  different entries can be done in either order (`writeOn_comm`).
* Whether and why a write fails does not depend on the data, where the
  disk takes all (`fst_writeOn_of_ne_nil`).

## What a failure leaves

A fault before anything is open, and a fault of a device, leave the files
as they were. A file is made or emptied when it is opened. If the disk has
too little room then the file keeps a beginning of the data, and this is
the only trace that a failure can leave (`writeOn_eq_error_cases`).
-/
import Mathlib.Data.List.TakeDrop
import BenchConfig.Proofs.FileSystem.Alike
import BenchConfig.Proofs.FileSystem.Leads

namespace BenchConfig.FileSystem

/-! ## 1. Disks -/

namespace Disk

variable {disk : Disk} {x y : Bytes}

@[simp] theorem takes_unlimited (x : Bytes) : unlimited.Takes x := trivial

theorem keep_of_takes (h : disk.Takes x) : disk.keep x = x := by
  obtain ⟨_ | room, fault⟩ := disk
  · rfl
  · exact List.take_of_length_le h

theorem keep_isPrefix (disk : Disk) (x : Bytes) : disk.keep x <+: x := by
  obtain ⟨_ | room, fault⟩ := disk
  · exact List.prefix_rfl
  · exact List.take_prefix room x

theorem keep_ne_of_not_takes (h : ¬ disk.Takes x) : disk.keep x ≠ x := by
  obtain ⟨_ | room, fault⟩ := disk
  · exact absurd trivial h
  · intro hkeep
    exact h ((List.take_eq_self_iff x).mp hkeep)

end Disk

/-! ## 2. What is opened -/

/-- A file can be at the entry: one is there, or nothing is there and the
directory exists. -/
def HasRoom (fs : FileSystem) (d : Location) (n : Name) : Prop :=
  fs.get? (d ++ [n]) = none ∧ fs.IsDirectory d ∨ ∃ old, fs.get? (d ++ [n]) = some (.file old)

/-- What can be open at an entry. -/
inductive Opens (fs : FileSystem) (d : Location) (n : Name) : Handle → Prop
  | file : fs.HasRoom d n → Opens fs d n (.file (d ++ [n]))
  | device {device : Device} :
      fs.get? (d ++ [n]) = some (.device device) → Opens fs d n (.device device)

variable {a b : FileSystem} {cwd d : Location} {p : Path UInt8} {n : Name} {data : Bytes}
  {disk : Disk} {h : Handle} {fault : Fault}

theorem entryHandle_eq_ok_iff (hlen : n.length ≤ maxName) :
    a.entryHandle d n = .ok h ↔ a.Opens d n h := by
  have hentry : a.lookup? d n = .ok (a.get? (d ++ [n])) := lookup?_eq_ok.mpr ⟨hlen, rfl⟩
  rw [entryHandle, hentry]
  constructor
  · intro hok
    cases hget : a.get? (d ++ [n]) with
    | none =>
      by_cases hdir : a.IsDirectory d
      · simp only [hget, hdir, if_true, Except.ok.injEq] at hok
        exact hok ▸ .file (.inl ⟨hget, hdir⟩)
      · simp [hget, hdir] at hok
    | some node =>
      rw [hget] at hok
      cases node with
      | directory | link target => cases hok
      | file old => exact Except.ok.inj hok ▸ .file (.inr ⟨old, hget⟩)
      | device device => exact Except.ok.inj hok ▸ .device hget
  · rintro (⟨⟨hnone, hdir⟩ | ⟨old, hold⟩⟩ | hdevice)
    · simp [hnone, hdir]
    · simp [hold]
    · simp [hdevice]

/-- A name that a path leads to has been looked up, so it is not too long
for the entry to be opened. -/
theorem handle_eq_ok_iff :
    a.handle cwd p = .ok h ↔
      ∃ d n, a.land .fill cwd p = .ok (.at d n false) ∧ a.Opens d n h := by
  unfold handle
  split
  · next hland => simp [hland]
  · next hland => simp [hland]
  · next hland => simp [hland]
  · next d n hland =>
    obtain ⟨k, hleads⟩ := leadsTo_of_land (by decide) hland
    simp [hland, entryHandle_eq_ok_iff hleads.isStep.2.2]

/-! ## 3. The change -/

/-- The one change from `a` to `b` is that the entry `n` of `d` is a file
with the content `data`. -/
structure Filled (a : FileSystem) (d : Location) (n : Name) (data : Bytes) (b : FileSystem) :
    Prop where
  room : a.HasRoom d n
  content : b.get? (d ++ [n]) = some (.file data)
  elsewhere : ∀ l, l ≠ d ++ [n] → b.get? l = a.get? l

theorem filled_insert (h : a.HasRoom d n) :
    Filled a d n data (a.insert (d ++ [n]) (.file data)) where
  room := h
  content := by simp [get?_insert]
  elsewhere l hl := by simp [get?_insert, hl]

namespace Filled

theorem sameWays (h : Filled a d n data b) : SameWays a b := by
  have hroom : a.get? (d ++ [n]) ≠ some .directory ∧
      ∀ target, a.get? (d ++ [n]) ≠ some (.link target) := by
    rcases h.room with ⟨hnone, -⟩ | ⟨old, hold⟩
    · simp [hnone]
    · simp [hold]
  constructor
  · intro l
    by_cases hl : l = d ++ [n]
    · subst hl
      simp [IsDirectory, h.content, hroom.1]
    · rw [IsDirectory, h.elsewhere l hl, IsDirectory]
  · intro l target
    by_cases hl : l = d ++ [n]
    · subst hl
      simp [h.content, hroom.2 target]
    · rw [h.elsewhere l hl]

theorem names_of_ne (h : Filled a d n data b) {d' : Location} (hd : d' ≠ d) :
    b.names d' = a.names d' := by
  refine FileSystem.names_eq fun m => ?_
  have hne : d' ++ [m] ≠ d ++ [n] := by
    intro heq
    exact hd (List.append_inj_left' heq rfl)
  rw [h.elsewhere _ hne]

/-- The directory of a new file gains its name. For a file that was there
already this says that the listing is the same. -/
theorem names_eq (h : Filled a d n data b) : b.names d = insertName n (a.names d) := by
  refine (names_sorted b d).eq_of_mem_iff (insertName_sorted (names_sorted a d)) fun m => ?_
  rw [mem_insertName, mem_names, mem_names]
  by_cases hm : m = n
  · simp [hm, h.content]
  · have hne : d ++ [m] ≠ d ++ [n] := by simpa using hm
    rw [h.elsewhere _ hne]
    simp [hm]

theorem names_of_isSome (h : Filled a d n data b) (hsome : (a.get? (d ++ [n])).isSome) :
    b.names d = a.names d := by
  refine FileSystem.names_eq fun m => ?_
  by_cases hm : m = n
  · simp [hm, h.content, hsome]
  · have hne : d ++ [m] ≠ d ++ [n] := by simpa using hm
    rw [h.elsewhere _ hne]

end Filled

theorem sameWays_pour (hopens : a.Opens d n h) (disk : Disk) (data : Bytes) :
    SameWays a (a.pour disk data h) := by
  cases hopens with
  | file hroom => exact (filled_insert hroom).sameWays
  | device _ => exact .refl a

/-! ## 4. One write -/

theorem writeOn_of_handle_eq_ok (hhandle : a.handle cwd p = .ok h) :
    a.writeOn disk cwd p data = (h.outcome disk data, a.pour disk data h) := by
  rw [writeOn, hhandle]

/-- All that can come of a write. -/
theorem writeOn_cases (disk : Disk) (a : FileSystem) (cwd : Location) (p : Path UInt8)
    (data : Bytes) :
    (∃ fault, a.writeOn disk cwd p data = (.error fault, a)) ∨
    ∃ d n h, a.land .fill cwd p = .ok (.at d n false) ∧ a.Opens d n h ∧
      a.writeOn disk cwd p data = (h.outcome disk data, a.pour disk data h) := by
  unfold writeOn
  cases hhandle : a.handle cwd p with
  | error fault => exact .inl ⟨fault, rfl⟩
  | ok h =>
    obtain ⟨d, n, hland, hopens⟩ := handle_eq_ok_iff.mp hhandle
    exact .inr ⟨d, n, h, hland, hopens, rfl⟩

/-- A success has filled a file, or a device has kept nothing. -/
theorem writeOn_eq_ok_cases (hwrite : a.writeOn disk cwd p data = (.ok (), b)) :
    ∃ d n, a.land .fill cwd p = .ok (.at d n false) ∧
      (Filled a d n data b ∨
        ∃ device, a.get? (d ++ [n]) = some (.device device) ∧ b = a) := by
  obtain ⟨fault, hfault⟩ | ⟨d, n, h, hland, hopens, hpour⟩ := writeOn_cases disk a cwd p data
  · cases hwrite.symm.trans hfault
  · obtain ⟨houtcome, rfl⟩ := Prod.mk.inj (hwrite.symm.trans hpour)
    refine ⟨d, n, hland, ?_⟩
    cases hopens with
    | file hroom =>
      have htakes : disk.Takes data := by
        by_contra hnot
        simp [Handle.outcome, hnot] at houtcome
      rw [pour, disk.keep_of_takes htakes]
      exact .inl (filled_insert hroom)
    | device hdevice => exact .inr ⟨_, hdevice, rfl⟩

/-- A failure has left a part of the data in a file, because there was no
room for all of it, or it has changed nothing. -/
theorem writeOn_eq_error_cases (hwrite : a.writeOn disk cwd p data = (.error fault, b)) :
    b = a ∨ ¬ disk.Takes data ∧ fault = disk.fault ∧
      ∃ d n, a.land .fill cwd p = .ok (.at d n false) ∧ Filled a d n (disk.keep data) b := by
  obtain ⟨_, hfault⟩ | ⟨d, n, h, hland, hopens, hpour⟩ := writeOn_cases disk a cwd p data
  · exact .inl (Prod.mk.inj (hwrite.symm.trans hfault)).2
  · obtain ⟨houtcome, rfl⟩ := Prod.mk.inj (hwrite.symm.trans hpour)
    cases hopens with
    | file hroom =>
      by_cases htakes : disk.Takes data
      · simp [Handle.outcome, htakes] at houtcome
      · have hfault : fault = disk.fault := by simpa [Handle.outcome, htakes] using houtcome
        exact .inr ⟨htakes, hfault, d, n, hland, filled_insert hroom⟩
    | device _ => exact .inl rfl

theorem eq_of_writeOn_eq_error (htakes : disk.Takes data)
    (hwrite : a.writeOn disk cwd p data = (.error fault, b)) : b = a := by
  obtain hsame | ⟨hnot, -⟩ := writeOn_eq_error_cases hwrite
  · exact hsame
  · exact absurd htakes hnot

theorem write_eq_error_iff :
    a.write cwd p data = .error fault ↔ (a.writeOn .unlimited cwd p data).1 = .error fault := by
  unfold write
  split
  · next hwrite => simp [hwrite]
  · next hwrite => simp [hwrite]

theorem sameWays_writeOn (disk : Disk) (a : FileSystem) (cwd : Location) (p : Path UInt8)
    (data : Bytes) : SameWays a (a.writeOn disk cwd p data).2 := by
  obtain ⟨fault, hfault⟩ | ⟨d, n, h, -, hopens, hpour⟩ := writeOn_cases disk a cwd p data
  · rw [hfault]
    exact .refl a
  · rw [hpour]
    exact sameWays_pour hopens disk data

theorem read_of_filled (hland : a.land .fill cwd p = .ok (.at d n false))
    (hfilled : Filled a d n data b) : b.read cwd p = .ok data := by
  have hthrough : b.land .through cwd p = .ok (.at d n false) :=
    hfilled.sameWays.land (by decide) (by decide) hland
  simp [read, hthrough, hfilled.content]

/-- Nothing else can be read back. A device can not be read at all. -/
theorem eq_of_writeOn_of_read {x : Bytes} (hwrite : a.writeOn disk cwd p data = (.ok (), b))
    (hread : b.read cwd p = .ok x) : x = data := by
  obtain ⟨d, n, hland, hfilled | ⟨device, hdevice, rfl⟩⟩ := writeOn_eq_ok_cases hwrite
  · rw [read_of_filled hland hfilled] at hread
    exact (Except.ok.inj hread).symm
  · have hthrough : b.land .through cwd p = .ok (.at d n false) :=
      (SameWays.refl b).land (by decide) (by decide) hland
    simp [read, hthrough, hdevice] at hread

/-! ## 5. Writing again -/

/-- The same answer, and files that are alike. -/
structure Agrees (x y : Except Fault Unit × FileSystem) : Prop where
  outcome : x.1 = y.1
  files : Alike x.2 y.2

theorem Agrees.refl (x : Except Fault Unit × FileSystem) : Agrees x x :=
  ⟨rfl, .refl x.2⟩

variable {x y : Bytes}

/-- What is open is opened again after it has taken some data. -/
theorem Opens.pour (hopens : a.Opens d n h) (disk : Disk) (x : Bytes) :
    (a.pour disk x h).Opens d n h := by
  cases hopens with
  | file hroom => exact .file (.inr ⟨_, (filled_insert hroom).content⟩)
  | device hdevice => exact .device hdevice

theorem alike_pour_pour (hopens : a.Opens d n h) (disk disk' : Disk) (x y : Bytes) :
    Alike ((a.pour disk x h).pour disk' y h) (a.pour disk' y h) := by
  cases hopens with
  | file _ => exact .insert_insert a (List.concat_ne_nil n d) _ _
  | device _ => exact .refl a

theorem SameWays.handle (hways : SameWays a b) (hland : a.land .fill cwd p = .ok (.at d n false))
    (hopens : b.Opens d n h) : b.handle cwd p = .ok h :=
  handle_eq_ok_iff.mpr ⟨d, n, hways.land (by decide) (by decide) hland, hopens⟩

/-- Of the earlier of two writes to one path nothing is left, whether it
came to its end or ran out of room, and whether there is more room or less
by now. -/
theorem writeOn_writeOn (disk disk' : Disk) (a : FileSystem) (cwd : Location) (p : Path UInt8)
    (x y : Bytes) :
    Agrees ((a.writeOn disk cwd p x).2.writeOn disk' cwd p y) (a.writeOn disk' cwd p y) := by
  obtain ⟨fault, hfault⟩ | ⟨d, n, h, hland, hopens, hpour⟩ := writeOn_cases disk a cwd p x
  · rw [hfault]
    exact .refl _
  · have halone : a.handle cwd p = .ok h := (SameWays.refl a).handle hland hopens
    have hagain : (a.pour disk x h).handle cwd p = .ok h :=
      (sameWays_pour hopens disk x).handle hland (hopens.pour disk x)
    rw [hpour, writeOn_of_handle_eq_ok hagain, writeOn_of_handle_eq_ok halone]
    exact ⟨rfl, alike_pour_pour hopens disk disk' x y⟩

/-! ## 6. Writing elsewhere -/

variable {cwd' e : Location} {q : Path UInt8} {m : Name}

/-- Nothing but the entry itself and the directories decides about what is
opened. -/
theorem Opens.of_sameWays (hopens : a.Opens d n h) (hways : SameWays a b)
    (hentry : b.get? (d ++ [n]) = a.get? (d ++ [n])) : b.Opens d n h := by
  cases hopens with
  | file hroom =>
    refine .file ?_
    rw [HasRoom, hentry, hways.directory]
    exact hroom
  | device hdevice => exact .device (hentry ▸ hdevice)

theorem get?_pour (hopens : a.Opens d n h) (hentry : b.get? (d ++ [n]) = a.get? (d ++ [n]))
    (l : Location) :
    (b.pour disk y h).get? l = if l = d ++ [n] then (a.pour disk y h).get? l else b.get? l := by
  cases hopens with
  | file _ =>
    have hne : d ++ [n] ≠ [] := List.concat_ne_nil n d
    rw [pour, pour, get?_insert _ hne, get?_insert _ hne]
    split <;> rfl
  | device _ =>
    split
    · next hl => rw [hl]; exact hentry
    · rfl

theorem get?_writeOn_of_ne (hp : a.LeadsTo cwd p d n) {l : Location} (hl : l ≠ d ++ [n]) :
    (a.writeOn disk cwd p x).2.get? l = a.get? l := by
  obtain ⟨fault, hfault⟩ | ⟨d', n', h, hland, hopens, hpour⟩ := writeOn_cases disk a cwd p x
  · rw [hfault]
  · obtain ⟨rfl, rfl⟩ := hp.unique (leadsTo_of_land (by decide) hland)
    rw [hpour, get?_pour hopens rfl, if_neg hl]

/-- A write that succeeds does so after a write to another entry too, and
has the effect that it has alone. -/
theorem writeOn_elsewhere (hp : a.LeadsTo cwd p d n) (hq : a.LeadsTo cwd' q e m)
    (hne : e ++ [m] ≠ d ++ [n]) (hy : (a.writeOn disk cwd' q y).1 = .ok ()) :
    let b := (a.writeOn disk cwd p x).2
    (b.writeOn disk cwd' q y).1 = .ok () ∧
      ∀ l, (b.writeOn disk cwd' q y).2.get? l
        = if l = e ++ [m] then (a.writeOn disk cwd' q y).2.get? l else b.get? l := by
  intro b
  have hways : SameWays a b := sameWays_writeOn disk a cwd p x
  have hentry : b.get? (e ++ [m]) = a.get? (e ++ [m]) := get?_writeOn_of_ne hp hne
  obtain ⟨fault, hfault⟩ | ⟨e', m', h, hland, hopens, hpour⟩ := writeOn_cases disk a cwd' q y
  · rw [hfault] at hy
    cases hy
  · obtain ⟨rfl, rfl⟩ := hq.unique (leadsTo_of_land (by decide) hland)
    have hhandle : b.handle cwd' q = .ok h := hways.handle hland (hopens.of_sameWays hways hentry)
    rw [hpour] at hy ⊢
    rw [writeOn_of_handle_eq_ok hhandle]
    exact ⟨hy, get?_pour hopens hentry⟩

/-- Writes to two different entries do not depend on their order. -/
theorem writeOn_comm (hp : a.LeadsTo cwd p d n) (hq : a.LeadsTo cwd' q e m)
    (hne : e ++ [m] ≠ d ++ [n]) (hx : (a.writeOn disk cwd p x).1 = .ok ())
    (hy : (a.writeOn disk cwd' q y).1 = .ok ()) :
    let b := (a.writeOn disk cwd p x).2
    let c := (a.writeOn disk cwd' q y).2
    (c.writeOn disk cwd p x).1 = .ok () ∧ (b.writeOn disk cwd' q y).1 = .ok () ∧
      Alike (b.writeOn disk cwd' q y).2 (c.writeOn disk cwd p x).2 := by
  intro b c
  obtain ⟨hc, hviewc⟩ := writeOn_elsewhere hp hq hne hy (x := x)
  obtain ⟨hb, hviewb⟩ := writeOn_elsewhere hq hp hne.symm hx (x := y)
  refine ⟨hb, hc, alike_of_get? fun l => ?_⟩
  rw [hviewc, hviewb]
  by_cases hl : l = e ++ [m]
  · subst hl
    rw [if_pos rfl, if_neg hne]
  by_cases hl' : l = d ++ [n]
  · rw [if_neg hl, if_pos hl']
  · -- what neither of the two touches is as it was before both
    rw [if_neg hl, if_neg hl', get?_writeOn_of_ne hp hl', get?_writeOn_of_ne hq hl]

/-! ## 7. Other data -/

/-- A device takes all that is something, or nothing of it. -/
theorem Handle.outcome_eq_of_ne_nil (hx : x ≠ []) (hy : y ≠ []) (h : Handle) :
    h.outcome .unlimited x = h.outcome .unlimited y := by
  cases h with
  | file l => rfl
  | device device => cases device <;> simp [Handle.outcome, Device.Takes, hx, hy]

/-- Whether some data is refused, and why, does not depend on the data. No
data at all is taken even by the full device. -/
theorem fst_writeOn_of_ne_nil (hx : x ≠ []) (hy : y ≠ []) (a : FileSystem) (cwd : Location)
    (p : Path UInt8) :
    (a.writeOn .unlimited cwd p x).1 = (a.writeOn .unlimited cwd p y).1 := by
  unfold writeOn
  cases a.handle cwd p with
  | error fault => rfl
  | ok h => exact h.outcome_eq_of_ne_nil hx hy

end BenchConfig.FileSystem
