import Certified.FileSystem
import Certified.Proofs.Steps

/-!
What a file system holds, and what stays when a file is written. A name leads to a location through what stands
at the locations on the way; a file that is written changes nothing anywhere else and is no directory that a name
went through, so every name that led somewhere still leads there.
-/

namespace Certified

/-- What there is at a location; of a directory only that it is one. -/
inductive Standing where
  | nothing
  | directory
  | file (content : Bytes)
deriving DecidableEq

namespace FileTree

def standing (t : FileTree) (location : Location) : Standing :=
  match t.at? location with
  | none => .nothing
  | some (.directory _) => .directory
  | some (.file content) => .file content

theorem standing_cons (t : FileTree) (name : String) (rest : Location) :
    t.standing (name :: rest) =
      match t.entries.lookup name with
      | some here => here.standing rest
      | none => .nothing := by
  rw [standing, at?_cons]
  cases t.entries.lookup name <;> rfl

theorem standing_file_cons (content : Bytes) (name : String) (rest : Location) :
    (file content).standing (name :: rest) = .nothing := by
  rw [standing_cons]
  rfl

theorem standing_eq_nothing_iff {t : FileTree} {location : Location} :
    t.standing location = .nothing ↔ t.at? location = none := by
  unfold standing
  split <;> simp_all

theorem standing_eq_directory_iff {t : FileTree} {location : Location} :
    t.standing location = .directory ↔ ∃ entries, t.at? location = some (.directory entries) := by
  unfold standing
  split <;> simp_all

/-- Only a directory has entries. -/
theorem standing_nil_of_lookup {t here : FileTree} {name : String}
    (held : t.entries.lookup name = some here) : t.standing [] = .directory := by
  cases t with
  | directory entries => rfl
  | file content => cases held

theorem at?_append (t : FileTree) (first second : Location) :
    t.at? (first ++ second) = (t.at? first).bind fun here => here.at? second := by
  unfold at?
  rw [List.foldlM_append]
  rfl

/-- What is on the way to something is a directory. -/
theorem standing_of_append {t : FileTree} {first : Location} {name : String} {rest : Location}
    (there : t.standing (first ++ name :: rest) ≠ .nothing) : t.standing first = .directory := by
  rw [Ne, standing_eq_nothing_iff, at?_append] at there
  cases found : t.at? first with
  | none => simp [found] at there
  | some here =>
    cases here with
    | directory entries => rw [standing, found]
    | file content => simp [found, entries] at there

/-! ### Inserting a file -/

theorem lookup_filter_of_ne {name other : String} (ne : other ≠ name)
    (entries : List (String × FileTree)) :
    (entries.filter (·.1 ≠ name)).lookup other = entries.lookup other := by
  induction entries with
  | nil => rfl
  | cons entry rest ih =>
    obtain ⟨first, here⟩ := entry
    by_cases gone : first = name
    · have skipped : (other == first) = false := by simpa [gone] using ne
      rw [List.filter_cons_of_neg (by simpa using gone), ih, List.lookup_cons, skipped]
    · rw [List.filter_cons_of_pos (by simpa using gone), List.lookup_cons, List.lookup_cons, ih]

/-- The entries after a file was put below one of them: that one alone is another. -/
theorem lookup_entries_insert (content : Bytes) (name other : String) (rest : Location) (t : FileTree) :
    (t.insert content (name :: rest)).entries.lookup other =
      if other = name then some (((t.entries.lookup name).getD (.directory [])).insert content rest)
      else t.entries.lookup other := by
  rw [insert, entries, List.lookup_cons]
  by_cases same : other = name
  · simp [same]
  · have skipped : (other == name) = false := by simpa using same
    rw [if_neg same, skipped]
    exact lookup_filter_of_ne same t.entries

theorem standing_insert (content : Bytes) (location : Location) (t : FileTree) :
    (t.insert content location).standing location = .file content := by
  rw [standing, at?_insert]

theorem standing_insert_cons_nil (content : Bytes) (name : String) (rest : Location) (t : FileTree) :
    (t.insert content (name :: rest)).standing [] = .directory := rfl

/-- Only below a directory there is anything. -/
theorem standing_cons_of_no_directory {t : FileTree} (other : t.standing [] ≠ .directory) (name : String)
    (rest : Location) : t.standing (name :: rest) = .nothing := by
  cases t with
  | directory entries => exact absurd rfl other
  | file content => exact standing_file_cons content name rest

/-- A file that is put into a directory, where no directory was, leaves everything else as it was. -/
theorem standing_insert_of_ne {t : FileTree} {parent : Location} {last : String} {other : Location}
    (content : Bytes) (directory : t.standing parent = .directory)
    (free : t.standing (parent ++ [last]) ≠ .directory) (ne : other ≠ parent ++ [last]) :
    (t.insert content (parent ++ [last])).standing other = t.standing other := by
  induction parent generalizing t other with
  | nil =>
    rw [List.nil_append] at free ne ⊢
    cases other with
    | nil => rw [directory, standing_insert_cons_nil]
    | cons name rest =>
      rw [standing_cons, standing_cons, lookup_entries_insert]
      by_cases same : name = last
      · -- Below a file there is nothing, and so there was below what stood in its place.
        have below : rest ≠ [] := fun none => ne (by rw [same, none])
        obtain ⟨next, rest, rfl⟩ := List.exists_cons_of_ne_nil below
        rw [standing_cons] at free
        subst same
        cases held : t.entries.lookup name with
        | none => simp only [if_true, insert, standing_file_cons]
        | some old =>
          rw [held] at free
          simp only [if_true, insert, standing_file_cons, standing_cons_of_no_directory free]
      · rw [if_neg same]
  | cons step parent ih =>
    rw [List.cons_append] at free ne ⊢
    rw [standing_cons] at directory free
    cases held : t.entries.lookup step with
    | none => simp [held] at directory
    | some here =>
      simp only [held] at directory free
      cases other with
      | nil => rw [standing_nil_of_lookup held, standing_insert_cons_nil]
      | cons name rest =>
        rw [standing_cons, standing_cons, lookup_entries_insert]
        by_cases same : name = step
        · subst same
          rw [if_pos rfl, held]
          exact ih directory free fun same => ne (by rw [same])
        · rw [if_neg same]

end FileTree

namespace FileSystem

def standing (fs : FileSystem) (location : Location) : Standing :=
  fs.top.standing location

theorem isDirectoryAt_iff {fs : FileSystem} {location : Location} :
    fs.isDirectoryAt location ↔ fs.standing location = .directory := by
  unfold isDirectoryAt standing FileTree.standing
  split <;> simp_all [FileTree.isDirectory]

/-! ### Following a name -/

/-- A name that stands for an entry. -/
structure EntryName (name : String) : Prop where
  notHere : name ≠ "."
  notBack : name ≠ ".."
  short : name.utf8ByteSize ≤ FileName.stepLimit

/-- A step leads from a directory to itself, back, or to one of its entries. -/
inductive Leads (fs : FileSystem) (here : Location) : String → Location → Prop where
  | stay (directory : fs.standing here = .directory) : Leads fs here "." here
  | back (directory : fs.standing here = .directory) : Leads fs here ".." here.dropLast
  | onward {name : String} (directory : fs.standing here = .directory) (named : EntryName name)
    (there : fs.standing (here ++ [name]) ≠ .nothing) : Leads fs here name (here ++ [name])

theorem standing_append_singleton {fs : FileSystem} {here : Location} {entries : List (String × FileTree)}
    (found : fs.top.at? here = some (.directory entries)) (name : String) :
    fs.standing (here ++ [name]) = .nothing ↔ entries.lookup name = none := by
  rw [standing, FileTree.standing_eq_nothing_iff, FileTree.at?_append, found]
  simp [FileTree.entries]

theorem step_of_directory {fs : FileSystem} {here : Location} (directory : fs.standing here = .directory)
    (name : String) :
    fs.step here name =
      if name = "." then .ok here
      else if name = ".." then .ok here.dropLast
      else if FileName.stepLimit < name.utf8ByteSize then .error .nameTooLong
      else if fs.standing (here ++ [name]) = .nothing then .error .notFound
      else .ok (here ++ [name]) := by
  obtain ⟨entries, found⟩ := FileTree.standing_eq_directory_iff.mp directory
  simp only [step, found, standing_append_singleton found]
  cases entries.lookup name <;> rfl

theorem step_of_not_directory {fs : FileSystem} {here : Location}
    (other : fs.standing here ≠ .directory) (name : String) : fs.step here name = .error .notDirectory := by
  unfold step
  split
  · rename_i entries found
    exact absurd (FileTree.standing_eq_directory_iff.mpr ⟨entries, found⟩) other
  · rfl

theorem step_eq_ok_iff {fs : FileSystem} {here there : Location} {name : String} :
    fs.step here name = .ok there ↔ fs.Leads here name there := by
  constructor
  · intro taken
    by_cases directory : fs.standing here = .directory
    · rw [step_of_directory directory] at taken
      split at taken
      · rename_i dot
        cases taken
        exact dot ▸ .stay directory
      split at taken
      · rename_i dots
        cases taken
        exact dots ▸ .back directory
      split at taken
      · cases taken
      split at taken
      · cases taken
      · rename_i notHere notBack short there
        cases taken
        exact .onward directory ⟨notHere, notBack, Nat.le_of_not_lt short⟩ there
    · rw [step_of_not_directory directory] at taken
      cases taken
  · intro leads
    cases leads with
    | stay directory => rw [step_of_directory directory, if_pos rfl]
    | back directory => rw [step_of_directory directory, if_neg (by decide), if_pos rfl]
    | onward directory named there =>
      rw [step_of_directory directory, if_neg named.notHere, if_neg named.notBack,
        if_neg (Nat.not_lt.mpr named.short), if_neg there]

/-- Nothing is found exactly where a directory has no entry of that name. -/
theorem step_eq_notFound_iff {fs : FileSystem} {here : Location} {name : String} :
    fs.step here name = .error .notFound ↔
      fs.standing here = .directory ∧ EntryName name ∧ fs.standing (here ++ [name]) = .nothing := by
  constructor
  · intro failed
    by_cases directory : fs.standing here = .directory
    · rw [step_of_directory directory] at failed
      split at failed
      · cases failed
      split at failed
      · cases failed
      split at failed
      · cases failed
      split at failed
      · rename_i notHere notBack short vacant
        exact ⟨directory, ⟨notHere, notBack, Nat.le_of_not_lt short⟩, vacant⟩
      · cases failed
    · rw [step_of_not_directory directory] at failed
      cases failed
  · rintro ⟨directory, named, vacant⟩
    rw [step_of_directory directory, if_neg named.notHere, if_neg named.notBack,
      if_neg (Nat.not_lt.mpr named.short), if_pos vacant]

theorem standing_of_append_singleton {fs : FileSystem} {here : Location} {name : String}
    (there : fs.standing (here ++ [name]) ≠ .nothing) : fs.standing here = .directory :=
  FileTree.standing_of_append there

/-- The directory that a step goes back to holds the one it comes from. -/
theorem standing_dropLast {fs : FileSystem} {here : Location} (directory : fs.standing here = .directory) :
    fs.standing here.dropLast = .directory := by
  rcases List.eq_nil_or_concat here with rfl | ⟨front, last, rfl⟩
  · exact directory
  · rw [List.concat_eq_append] at directory ⊢
    rw [List.dropLast_concat]
    have there : fs.standing (front ++ [last]) ≠ .nothing := by simp [directory]
    exact standing_of_append_singleton there

/-- The last step is taken from where the others lead. -/
theorem walk_concat {fs : FileSystem} {front : List String} {first parent : Location}
    (led : front.foldlM fs.step first = .ok parent) (last : String) :
    (front ++ [last]).foldlM fs.step first = fs.step parent last := by
  rw [List.foldlM_append, led, ok_bind, List.foldlM_cons]
  cases fs.step parent last <;> rfl

theorem read_eq_ok_iff {fs : FileSystem} {text : String} {content : Bytes} :
    fs.read text = .ok content ↔ ∃ name here, nameOf text = .ok name ∧
      name.steps.foldlM fs.step (fs.start name) = .ok here ∧
      fs.standing here = .file content ∧ name.directoryOnly = false := by
  simp only [read, bind_eq_ok_iff, standing, FileTree.standing]
  constructor
  · rintro ⟨name, named, here, led, found⟩
    refine ⟨name, here, named, led, ?_⟩
    split at found
    · rename_i held
      split at found
      · cases found
      · rename_i file
        cases found
        simp [held, file]
    · cases found
    · cases found
  · rintro ⟨name, here, named, led, held, file⟩
    refine ⟨name, named, here, led, ?_⟩
    split at held
    · cases held
    · cases held
    · rename_i found
      cases held
      simp [found, file]

/-! ### Names under which files are written -/

/-- A name under which a file can be written: all but the last step lead to a directory, and in it the last one
names what is no directory. -/
inductive Writable (fs : FileSystem) (text : String) : Location → Prop where
  | intro {name : FileName} {front : List String} {last : String} {parent : Location}
    (named : nameOf text = .ok name) (steps : name.steps = front ++ [last])
    (file : name.directoryOnly = false) (led : front.foldlM fs.step (fs.start name) = .ok parent)
    (directory : fs.standing parent = .directory) (entry : EntryName last)
    (free : fs.standing (parent ++ [last]) ≠ .directory) : Writable fs text (parent ++ [last])

/-- A name under which there is nothing yet: all but the last step lead to a directory, which has no such
entry. -/
inductive Vacant (fs : FileSystem) (text : String) : Location → Prop where
  | intro {name : FileName} {front : List String} {last : String} {parent : Location}
    (named : nameOf text = .ok name) (steps : name.steps = front ++ [last])
    (file : name.directoryOnly = false) (led : front.foldlM fs.step (fs.start name) = .ok parent)
    (missing : fs.step parent last = .error .notFound) : Vacant fs text (parent ++ [last])

theorem Vacant.writable {fs : FileSystem} {text : String} {location : Location}
    (vacant : fs.Vacant text location) : fs.Writable text location := by
  obtain ⟨named, steps, file, led, missing⟩ := vacant
  obtain ⟨directory, entry, nothing⟩ := step_eq_notFound_iff.mp missing
  exact .intro named steps file led directory entry (by simp [nothing])

/-- A step that leads to no directory leads to an entry. -/
theorem Leads.onward_of_no_directory {fs : FileSystem} {here there : Location} {name : String}
    (leads : fs.Leads here name there) (other : fs.standing there ≠ .directory) :
    fs.standing here = .directory ∧ EntryName name ∧ there = here ++ [name] := by
  cases leads with
  | stay directory => exact absurd directory other
  | back directory => exact absurd (standing_dropLast directory) other
  | onward directory named => exact ⟨directory, named, rfl⟩

theorem writable_of_writeLocation {fs : FileSystem} {text : String} {location : Location}
    (found : fs.writeLocation text = .ok location) : fs.Writable text location := by
  obtain ⟨name, named, next⟩ := bind_eq_ok_iff.mp found
  split at next
  · cases next
  rename_i last final
  obtain ⟨front, steps⟩ := List.getLast?_eq_some_iff.mp final
  rw [steps, List.dropLast_concat] at next
  obtain ⟨parent, led, next⟩ := bind_eq_ok_iff.mp next
  cases file : name.directoryOnly with
  | true =>
    rw [file] at next
    cases next
  | false =>
    rw [file] at next
    cases taken : fs.step parent last with
    | ok here =>
      simp only [taken, Bool.false_eq_true, if_false] at next
      split at next
      · cases next
      rename_i other
      cases next
      have free : fs.standing location ≠ .directory := fun there => other (isDirectoryAt_iff.mpr there)
      obtain ⟨directory, entry, rfl⟩ := (step_eq_ok_iff.mp taken).onward_of_no_directory free
      exact .intro named steps file led directory entry free
    | error e =>
      simp only [taken, Bool.false_eq_true, if_false] at next
      cases e <;> cases next
      exact (Vacant.intro named steps file led taken).writable

/-- Where a file can be written there is nothing yet, or a file that can be read. -/
theorem vacant_or_read {fs : FileSystem} {text : String} {location : Location}
    (found : fs.writeLocation text = .ok location) :
    fs.Vacant text location ∨
      ∃ content, fs.standing location = .file content ∧ fs.read text = .ok content := by
  obtain @⟨name, front, last, parent, named, steps, file, led, directory, entry, free⟩ :=
    writable_of_writeLocation found
  cases there : fs.standing (parent ++ [last]) with
  | nothing => exact .inl (.intro named steps file led (step_eq_notFound_iff.mpr ⟨directory, entry, there⟩))
  | directory => exact absurd there free
  | file content =>
    have taken : fs.step parent last = .ok (parent ++ [last]) :=
      step_eq_ok_iff.mpr (.onward directory entry (by simp [there]))
    refine .inr ⟨content, rfl, read_eq_ok_iff.mpr ⟨name, _, named, ?_, there, file⟩⟩
    rw [steps, walk_concat led, taken]

theorem Vacant.standing_eq {fs : FileSystem} {text : String} {location : Location}
    (vacant : fs.Vacant text location) : fs.standing location = .nothing := by
  obtain ⟨_, _, _, _, missing⟩ := vacant
  exact (step_eq_notFound_iff.mp missing).2.2

theorem Vacant.writeLocation_eq {fs : FileSystem} {text : String} {location : Location}
    (vacant : fs.Vacant text location) : fs.writeLocation text = .ok location := by
  obtain ⟨named, steps, file, led, missing⟩ := vacant
  simp only [writeLocation, named, ok_bind, steps, List.getLast?_concat, List.dropLast_concat, led, file,
    missing]
  rfl

theorem Vacant.read_eq {fs : FileSystem} {text : String} {location : Location}
    (vacant : fs.Vacant text location) : fs.read text = .error .notFound := by
  obtain ⟨named, steps, file, led, missing⟩ := vacant
  simp only [read, named, ok_bind, steps, walk_concat led, missing, error_bind]

/-! ### Writing a file -/

/-- What can be gone through in the first file system can be in the second: directories stay, and where there was
something there still is. -/
structure KeepsWays (before after : FileSystem) : Prop where
  workingDirectory : after.workingDirectory = before.workingDirectory
  directory : ∀ location, before.standing location = .directory → after.standing location = .directory
  there : ∀ location, before.standing location ≠ .nothing → after.standing location ≠ .nothing

/-- What is in the first file system is still there in the second. -/
structure Keeps (before after : FileSystem) : Prop where
  workingDirectory : after.workingDirectory = before.workingDirectory
  standing : ∀ location, before.standing location ≠ .nothing →
    after.standing location = before.standing location

/-- In the second file system there is a file where no directory was in the first, and all else is as it was. -/
structure Puts (before after : FileSystem) (location : Location) (content : Bytes) : Prop where
  workingDirectory : after.workingDirectory = before.workingDirectory
  free : before.standing location ≠ .directory
  put : after.standing location = .file content
  others : ∀ other, other ≠ location → after.standing other = before.standing other

/-- In the second file system there is one file more, where nothing was in the first, and all else is as it
was. -/
structure Adds (before after : FileSystem) (location : Location) (content : Bytes) : Prop where
  workingDirectory : after.workingDirectory = before.workingDirectory
  vacant : before.standing location = .nothing
  added : after.standing location = .file content
  others : ∀ other, other ≠ location → after.standing other = before.standing other

section

variable {before after : FileSystem} {location : Location} {content : Bytes} {text : String}

theorem Keeps.refl (fs : FileSystem) : Keeps fs fs :=
  ⟨rfl, fun _ _ => rfl⟩

theorem Keeps.ways (keeps : Keeps before after) : KeepsWays before after := by
  refine ⟨keeps.workingDirectory, ?_, ?_⟩
  · intro location directory
    rw [keeps.standing location (by simp [directory]), directory]
  · intro location there
    rwa [keeps.standing location there]

theorem Adds.keeps (adds : Adds before after location content) : Keeps before after := by
  refine ⟨adds.workingDirectory, ?_⟩
  intro other there
  apply adds.others
  rintro rfl
  exact there adds.vacant

theorem Adds.puts (adds : Adds before after location content) : Puts before after location content :=
  ⟨adds.workingDirectory, by simp [adds.vacant], adds.added, adds.others⟩

/-- A file that replaces another one is in nobody's way. -/
theorem Puts.ways (puts : Puts before after location content) : KeepsWays before after := by
  refine ⟨puts.workingDirectory, ?_, ?_⟩
  · intro other directory
    rw [puts.others other, directory]
    rintro rfl
    exact puts.free directory
  · intro other there
    by_cases same : other = location
    · simp [same, puts.put]
    · rwa [puts.others other same]

theorem KeepsWays.leads (ways : KeepsWays before after) {here there : Location} {name : String}
    (leads : before.Leads here name there) : after.Leads here name there := by
  cases leads with
  | stay held => exact .stay (ways.directory here held)
  | back held => exact .back (ways.directory here held)
  | onward held named there => exact .onward (ways.directory here held) named (ways.there _ there)

/-- Steps that can be taken lead where they led. -/
theorem KeepsWays.walk (ways : KeepsWays before after) {steps : List String} {here there : Location}
    (led : steps.foldlM before.step here = .ok there) : steps.foldlM after.step here = .ok there := by
  induction steps generalizing here with
  | nil => exact led
  | cons name steps ih =>
    rw [List.foldlM_cons] at led ⊢
    obtain ⟨next, taken, led⟩ := bind_eq_ok_iff.mp led
    rw [step_eq_ok_iff.mpr (ways.leads (step_eq_ok_iff.mp taken)), ok_bind]
    exact ih led

theorem KeepsWays.start_eq (ways : KeepsWays before after) (name : FileName) :
    after.start name = before.start name := by
  rw [start, start, ways.workingDirectory]

/-- A file that can be read is read as before. -/
theorem Keeps.read (keeps : Keeps before after) (read : before.read text = .ok content) :
    after.read text = .ok content := by
  obtain ⟨name, here, named, led, held, file⟩ := read_eq_ok_iff.mp read
  refine read_eq_ok_iff.mpr ⟨name, here, named, ?_, ?_, file⟩
  · rw [keeps.ways.start_eq]
    exact keeps.ways.walk led
  · rw [keeps.standing here (by simp [held]), held]

/-- Writing under a name puts the file there and does nothing else. -/
theorem Writable.puts (writable : before.Writable text location) (content : Bytes) :
    Puts before (before.write location content) location content := by
  obtain ⟨_, _, _, _, directory, _, free⟩ := writable
  refine ⟨rfl, free, FileTree.standing_insert _ _ _, ?_⟩
  intro other ne
  exact FileTree.standing_insert_of_ne content directory free ne

theorem Vacant.adds (vacant : before.Vacant text location) (content : Bytes) :
    Adds before (before.write location content) location content := by
  have puts := vacant.writable.puts content
  exact ⟨puts.workingDirectory, vacant.standing_eq, puts.put, puts.others⟩

/-- What was written under a name is read under it. -/
theorem Writable.read_of_puts (writable : before.Writable text location)
    (puts : Puts before after location content) : after.read text = .ok content := by
  obtain @⟨name, front, last, parent, named, steps, file, led, directory, entry, free⟩ := writable
  have taken : after.step parent last = .ok (parent ++ [last]) :=
    step_eq_ok_iff.mpr (.onward (puts.ways.directory parent directory) entry (by simp [puts.put]))
  refine read_eq_ok_iff.mpr ⟨name, parent ++ [last], named, ?_, puts.put, file⟩
  rw [steps, puts.ways.start_eq, walk_concat (puts.ways.walk led), taken]

theorem Vacant.read_of_adds (vacant : before.Vacant text location)
    (adds : Adds before after location content) : after.read text = .ok content :=
  vacant.writable.read_of_puts adds.puts

/-- A file is read as it was last written. -/
theorem read_write (found : before.writeLocation text = .ok location) (content : Bytes) :
    (before.write location content).read text = .ok content := by
  have writable := writable_of_writeLocation found
  exact writable.read_of_puts (writable.puts content)

end

end FileSystem
end Certified
