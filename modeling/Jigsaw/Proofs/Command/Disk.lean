import Jigsaw.Command.Disk
import Jigsaw.Proofs.Block.Record

/-!
# Proofs/Command/Disk — what a written file changes

A file is put into a folder that exists, in place of a file or of nothing.  So exactly one path
leads to something new (`Entry.find?_put`), all folders are what they were, and every name stands
for the place it stood for (`place?_congr`).  A disk after a write is therefore told by the file
that was written and the disk before it (`Disk.Rewritten`), whether or not the file took all the
bytes.
-/

namespace Jigsaw.Command

/-! ## Trees -/

theorem Entry.find?_eq_none_of_file {e : Entry} {rest : List String} (hrest : rest ≠ [])
    (h : ∀ access, e.find? [] ≠ some (.folder access)) : e.find? rest = none := by
  cases e with
  | folder access entries => exact absurd rfl (h access)
  | file held =>
    cases rest with
    | nil => exact absurd rfl hrest
    | cons step rest => rfl

/-- **A file that is put into a folder is found there, and everything else where it was**, if no
folder was in its place. -/
theorem Entry.find?_put {name : String} {new : File} (folder : List String) {e : Entry}
    {access : Access} (hfolder : e.find? folder = some (.folder access))
    (hplace : ∀ inner, e.find? (folder ++ [name]) ≠ some (.folder inner)) (p : List String) :
    (e.put name new folder).find? p
      = if p = folder ++ [name] then some (.file new) else e.find? p := by
  induction folder generalizing e p with
  | nil =>
    cases e with
    | file held => cases hfolder
    | folder _ entries =>
      cases p with
      | nil => rfl
      | cons step rest =>
        rw [put, find?, find?, Record.get?_put]
        by_cases hstep : step = name
        · subst hstep
          cases rest with
          | nil => simp [find?]
          | cons next rest =>
            -- nothing lies below the file, and nothing lay below what it replaced
            have hold : (Record.get? entries step).bind (find? (next :: rest)) = none := by
              cases hget : Record.get? entries step with
              | none => rfl
              | some inner =>
                refine find?_eq_none_of_file (List.cons_ne_nil _ _) fun access hinner => ?_
                refine hplace access ?_
                rw [List.nil_append, find?, hget]
                exact hinner
            simp [find?, hold]
        · simp [hstep]
  | cons first outer ih =>
    cases e with
    | file held => cases hfolder
    | folder _ entries =>
      rw [find?] at hfolder
      obtain ⟨inner, hget, hinner⟩ := Option.bind_eq_some_iff.mp hfolder
      have hput := ih hinner fun access hfound => hplace access (by
        rw [List.cons_append, find?, hget]
        exact hfound)
      cases p with
      | nil => simp [put, hget, find?]
      | cons step rest =>
        simp only [put, hget, find?, Record.get?_put]
        by_cases hstep : step = first
        · subst hstep
          simp [hput, hget]
        · simp [hstep]

/-! ## Places -/

namespace Disk

variable {disk : Disk} {name : String} {place : Place} {file : File} {bytes : ByteArray}

theorem path_injective : Function.Injective Place.path := by
  rintro ⟨folder, name⟩ ⟨folder', name'⟩ h
  obtain ⟨rfl, hname⟩ := List.append_inj' h rfl
  cases hname
  rfl

theorem searches_iff {path : List String} :
    disk.searches path ↔ ∃ access, disk.find? path = some (.folder access) ∧ access.searchable := by
  unfold searches
  cases disk.find? path with
  | none => simp
  | some found => cases found <;> simp

/-- The folder of a place exists. -/
theorem searches_of_place? (h : disk.place? name = some place) : disk.searches place.folder := by
  unfold place? at h
  split at h
  · cases h
  obtain ⟨last, -, h⟩ := Option.bind_eq_some_iff.mp h
  obtain ⟨folder, -, h⟩ := Option.bind_eq_some_iff.mp h
  split at h
  · cases h
  · rename_i hrefused
    cases h
    simp only [Bool.or_eq_true, not_or, Bool.not_eq_true, Bool.not_eq_false'] at hrefused
    exact hrefused.2

/-- Names stand for the same places on disks with the same folders. -/
theorem place?_congr {other : Disk} (hsearches : other.searches = disk.searches)
    (hcurrent : other.current = disk.current) (name : String) :
    other.place? name = disk.place? name := by
  have henter : other.enter = disk.enter := by
    funext path step
    simp only [enter, hsearches]
  simp only [place?, start, hsearches, hcurrent, henter]

/-! ## Opened files -/

/-- A file is opened at the place of its name, which no folder takes. -/
theorem of_opened? (h : disk.opened? name = some (place, file)) :
    disk.place? name = some place ∧ ∀ access, disk.find? place.path ≠ some (.folder access) := by
  unfold opened? at h
  obtain ⟨found, hplace, h⟩ := Option.bind_eq_some_iff.mp h
  split at h
  · rename_i hfound
    split at h
    · cases h
      exact ⟨hplace, by simp [hfound]⟩
    · cases h
  · cases h
  · rename_i hfound
    split at h
    · cases h
      exact ⟨hplace, by simp [hfound]⟩
    · cases h

/-- The disk with a file put at a place that no folder takes. -/
theorem find?_put (hfolder : disk.searches place.folder)
    (hplace : ∀ access, disk.find? place.path ≠ some (.folder access)) (p : List String) :
    (disk.put place file).find? p = if p = place.path then some (.file file) else disk.find? p := by
  obtain ⟨access, haccess, -⟩ := searches_iff.mp hfolder
  exact Entry.find?_put place.folder haccess hplace p

/-- A file in place of a file or of nothing changes no folder. -/
theorem searches_congr {other : Disk} {replaced : File}
    (hplace : ∀ access, disk.find? place.path ≠ some (.folder access))
    (h : ∀ p, other.find? p = if p = place.path then some (.file replaced) else disk.find? p) :
    other.searches = disk.searches := by
  funext p
  rw [Bool.eq_iff_iff, searches_iff, searches_iff, h]
  by_cases hp : p = place.path
  · subst hp
    simp [hplace]
  · rw [if_neg hp]

/-- **The disk after a write**: the file that a name stands for holds these bytes, it may be read
and written as before, nothing else is different, and all names stand for what they stood for. -/
structure Rewritten (before : Disk) (name : String) (bytes : ByteArray) (after : Disk) : Prop where
  found : ∃ place file, before.opened? name = some (place, file) ∧
    (∀ p, after.find? p
      = if p = place.path then some (.file { file with bytes }) else before.find? p) ∧
    ∀ other, after.read? other
      = if before.place? other = some place then if file.readable then some bytes else none
        else before.read? other
  places : ∀ other, after.place? other = before.place? other
  current : after.current = before.current
  limit : after.limit = before.limit

/-- What is known of the paths gives what is read under names. -/
theorem read?_congr {other : Disk} {replaced : File}
    (hplaces : ∀ name, other.place? name = disk.place? name)
    (h : ∀ p, other.find? p = if p = place.path then some (.file replaced) else disk.find? p)
    (name : String) : other.read? name
      = if disk.place? name = some place
        then if replaced.readable then some replaced.bytes else none
        else disk.read? name := by
  unfold read?
  rw [hplaces]
  cases hplace : disk.place? name with
  | none => simp
  | some q =>
    by_cases hq : q = place
    · subst hq
      simp [h]
    · have hpath : q.path ≠ place.path := fun heq => hq (path_injective heq)
      simp [h, hq, hpath]

/-- **A write to a file that can be opened leaves it with the bytes that it takes.** -/
theorem rewritten_write (h : disk.opened? name = some (place, file)) (bytes : ByteArray) :
    (disk.write name bytes).1 = disk.fits bytes ∧
      Rewritten disk name (disk.taken bytes) (disk.write name bytes).2 := by
  obtain ⟨hname, hplace⟩ := of_opened? h
  have hfolder := searches_of_place? hname
  have hemptied (p : List String) : (disk.put place file).find? p
      = if p = place.path then some (.file file) else disk.find? p := find?_put hfolder hplace p
  have hfilled (p : List String) : (disk.write name bytes).2.find? p
      = if p = place.path then some (.file { file with bytes := disk.taken bytes })
        else disk.find? p := by
    have hsearches := searches_congr hplace hemptied
    rw [write, h]
    refine (find?_put (hsearches ▸ hfolder) (by simp [hemptied]) p).trans ?_
    rw [hemptied]
    split <;> rfl
  have hplaces := place?_congr (searches_congr hplace hfilled) (by rw [write, h]; rfl)
  refine ⟨by rw [write, h]; rfl, ⟨place, file, h, hfilled, read?_congr hplaces hfilled⟩, hplaces,
    by rw [write, h]; rfl, by rw [write, h]; rfl⟩

theorem write_of_not_opened (h : disk.opened? name = none) (bytes : ByteArray) :
    disk.write name bytes = (false, disk) := by
  rw [write, h]

/-! ## Bytes that fit -/

theorem taken_of_fits (h : disk.fits bytes) : disk.taken bytes = bytes := by
  unfold fits at h
  unfold taken
  cases hlimit : disk.limit with
  | none => rfl
  | some size =>
    have hsize : bytes.size ≤ size := by simpa [hlimit] using h
    refine ByteArray.ext ?_
    rw [ByteArray.data_extract, Array.extract_eq_self_of_le hsize]

/-- What does not fit is cut short. -/
theorem taken_of_not_fits (h : ¬ disk.fits bytes) :
    ∃ size < bytes.size, disk.limit = some size ∧ disk.taken bytes = bytes.extract 0 size := by
  unfold fits at h
  unfold taken
  cases hlimit : disk.limit with
  | none => simp [hlimit] at h
  | some size => exact ⟨size, by simpa [hlimit] using h, rfl, rfl⟩

end Disk

end Jigsaw.Command
