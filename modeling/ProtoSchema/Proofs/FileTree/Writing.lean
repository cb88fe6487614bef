import ProtoSchema.FileTree

/-!
# Writing to a file tree

A file that is written reads back as its content, whichever links the path to it follows and however
many names it has. Only a path that leads to a special file is different: that file takes what is
written, and the tree holds nothing of it.

The way to a file is the same before and after, because a write makes or changes nothing but files
(`OnlyFiles.find`): a file never takes the place of a directory or of a link.

Main statement: `FileTree.writeBytes_spec`.
-/

namespace ProtoSchema

namespace FileTree

variable {t t' : FileTree} {location found : Location} {names : List String} {path : String}
  {content old : ByteArray}

theorem isDirectory_iff : t.isDirectory location = true ↔ t.entry? location = some .directory := by
  unfold isDirectory
  split
  · next h => simp [h]
  · next h => simpa using h

/-! ## New entries -/

theorem entry?_cons (t : FileTree) (name : String) (parents : Location) :
    t.entry? (name :: parents)
      = (t.node? (name :: parents)).bind fun number => t.nodes[number]? := rfl

theorem node?_insert_self (t : FileTree) (location : Location) (e : Entry) :
    (t.insert location e).node? location = some t.nodes.length :=
  List.lookup_cons_self

theorem node?_insert_of_ne (t : FileTree) (e : Entry) (h : location ≠ found) :
    (t.insert found e).node? location = t.node? location := by
  show List.lookup location ((found, t.nodes.length) :: t.names) = _
  rw [List.lookup_cons, beq_eq_false_iff_ne.mpr h]
  rfl

theorem entry?_insert_self (e : Entry) (h : t.entry? location = none) :
    entry? (t.insert location e) location = some e := by
  cases location with
  | nil => cases h
  | cons name parents =>
    rw [entry?_cons, node?_insert_self]
    exact List.getElem?_concat_length

/-- A new entry changes nothing that stands elsewhere. -/
theorem entry?_insert_of_ne (e : Entry) (h : location ≠ found) :
    entry? (t.insert found e) location = t.entry? location ∨
      t.entry? location = none ∧ entry? (t.insert found e) location = some e := by
  cases location with
  | nil => exact Or.inl rfl
  | cons name parents =>
    rw [entry?_cons, entry?_cons, node?_insert_of_ne t e h]
    cases t.node? (name :: parents) with
    | none => exact Or.inl rfl
    | some number =>
      show (t.nodes ++ [e])[number]? = t.nodes[number]? ∨
        t.nodes[number]? = none ∧ (t.nodes ++ [e])[number]? = some e
      -- a name may be there before its node
      by_cases hnumber : number < t.nodes.length
      · exact Or.inl (List.getElem?_append_left hnumber)
      · have hnone : t.nodes[number]? = none := List.getElem?_eq_none (Nat.not_lt.mp hnumber)
        rw [hnone, List.getElem?_append_right (Nat.not_lt.mp hnumber), List.getElem?_singleton]
        split
        · exact Or.inr ⟨rfl, rfl⟩
        · exact Or.inl rfl

/-! ## New content -/

/-- A file has a node. -/
theorem exists_node (h : t.entry? location = some (.file content)) :
    ∃ number, t.node? location = some number ∧ t.nodes[number]? = some (.file content) := by
  cases location with
  | nil => cases h
  | cons name parents => exact Option.bind_eq_some_iff.mp h

/-- **New content is found under every name of the file**, and nothing else is changed. -/
theorem entry?_overwrite (h : t.entry? location = some (.file old)) (other : Location) :
    entry? (t.overwrite location content) other
      = if other ≠ [] ∧ t.node? other = t.node? location then some (.file content)
        else t.entry? other := by
  obtain ⟨number, hnode, hfile⟩ := exists_node h
  have hnumber : number < t.nodes.length := (List.getElem?_eq_some_iff.mp hfile).1
  have hover : t.overwrite location content
      = { t with nodes := t.nodes.set number (.file content) } := by
    rw [overwrite, hnode]
  cases other with
  | nil => exact (if_neg fun h => h.1 rfl).symm
  | cons name parents =>
    rw [hover, entry?_cons, entry?_cons, hnode]
    show (t.node? (name :: parents)).bind (fun n => (t.nodes.set number _)[n]?) = _
    cases hother : t.node? (name :: parents) with
    | none => simp
    | some n =>
      simp only [Option.bind_some, List.getElem?_set, Option.some.injEq, ne_eq, reduceCtorEq,
        not_false_eq_true, true_and]
      by_cases heq : number = n
      · subst heq
        simp [hnumber]
      · simp [heq, Ne.symm heq]

/-! ## Nothing but files -/

/-- All that is different in the second tree is a file there, and was a file or nothing before. -/
structure OnlyFiles (t t' : FileTree) : Prop where
  workingDirectory : t'.workingDirectory = t.workingDirectory
  entry : ∀ location, t'.entry? location = t.entry? location ∨
    (t.entry? location = none ∨ ∃ old, t.entry? location = some (.file old)) ∧
      ∃ new, t'.entry? location = some (.file new)

theorem onlyFiles_insert (h : t.entry? location = none) :
    OnlyFiles t (t.insert location (.file content)) where
  workingDirectory := rfl
  entry := by
    intro other
    by_cases heq : other = location
    · subst heq
      exact Or.inr ⟨Or.inl h, content, entry?_insert_self _ h⟩
    · rcases entry?_insert_of_ne (t := t) (.file content) heq with hsame | ⟨hnone, hnew⟩
      · exact Or.inl hsame
      · exact Or.inr ⟨Or.inl hnone, content, hnew⟩

theorem onlyFiles_overwrite (h : t.entry? location = some (.file old)) :
    OnlyFiles t (t.overwrite location content) where
  workingDirectory := by
    unfold overwrite
    split <;> rfl
  entry := by
    intro other
    rw [entry?_overwrite h]
    split
    · next hname =>
      obtain ⟨hne, hnode⟩ := hname
      obtain ⟨name, parents, rfl⟩ := List.exists_cons_of_ne_nil hne
      obtain ⟨number, hnumber, hfile⟩ := exists_node h
      have hold : t.entry? (name :: parents) = some (.file old) := by
        rw [entry?_cons, hnode, hnumber]
        exact hfile
      exact Or.inr ⟨Or.inr ⟨old, hold⟩, content, rfl⟩
    · exact Or.inl rfl

theorem OnlyFiles.isDirectory (h : OnlyFiles t t') (hdirectory : t.isDirectory location = true) :
    t'.isDirectory location = true := by
  rw [isDirectory_iff] at hdirectory ⊢
  rcases h.entry location with hsame | ⟨hnone | ⟨old, hold⟩, -⟩
  · rw [hsame, hdirectory]
  · rw [hnone] at hdirectory
    cases hdirectory
  · rw [hold] at hdirectory
    cases hdirectory

/-- **A file is in the way of no stride.** -/
theorem OnlyFiles.stride {halt : Halt} (h : OnlyFiles t t')
    (hstride : t.stride names location = .ok halt) : t'.stride names location = .ok halt := by
  induction names generalizing location with
  | nil => exact hstride
  | cons name rest ih =>
    rw [FileTree.stride] at hstride ⊢
    cases hdirectory : t.isDirectory location with
    | false => simp [hdirectory] at hstride
    | true =>
      rw [h.isDirectory hdirectory]
      rw [hdirectory] at hstride
      by_cases hlength : Path.maxNameLength < name.utf8ByteSize
      · simp [hlength] at hstride
      · simp only [Bool.not_true, Bool.false_eq_true, if_false, hlength] at hstride ⊢
        rcases h.entry (follow location name) with hsame | ⟨hnone | ⟨old, hold⟩, new, hnew⟩
        · rw [hsame]
          split at hstride
          · exact hstride
          · exact ih hstride
          · exact hstride
        · rw [hnone] at hstride
          rw [hnew]
          -- nothing stood there, so this is the last name
          cases rest with
          | nil => exact hstride
          | cons next later => cases hstride
        · rw [hold] at hstride
          rw [hnew]
          exact ih hstride

/-- **A walk is one stride, or a stride to a symbolic link and a walk behind it.** -/
theorem walk_eq_ok_iff {links : Nat} :
    t.walk links names location = .ok found ↔
      t.stride names location = .ok (.arrived found) ∨
        ∃ fewer directory target rest, links = fewer + 1 ∧
          t.stride names location = .ok (.link directory target rest) ∧
            t.walk fewer (Path.names target ++ rest) (origin directory target) = .ok found := by
  rw [walk]
  cases t.stride names location with
  | error e => simp
  | ok halt =>
    cases halt with
    | arrived location => simp
    | link directory target rest =>
      cases links with
      | zero => simp
      | succ fewer =>
        constructor
        · intro h
          exact Or.inr ⟨fewer, directory, target, rest, rfl, rfl, h⟩
        · rintro (harrived | ⟨_, _, _, _, hlinks, hlink, h⟩)
          · cases harrived
          · cases hlinks
            cases hlink
            exact h

theorem OnlyFiles.walk (h : OnlyFiles t t') {links : Nat}
    (hwalk : t.walk links names location = .ok found) :
    t'.walk links names location = .ok found := by
  induction links generalizing names location with
  | zero =>
    rcases walk_eq_ok_iff.mp hwalk with harrived | ⟨_, _, _, _, hlinks, -, -⟩
    · exact walk_eq_ok_iff.mpr (Or.inl (h.stride harrived))
    · cases hlinks
  | succ links ih =>
    rcases walk_eq_ok_iff.mp hwalk with
      harrived | ⟨_, directory, target, rest, hlinks, hlink, hrest⟩
    · exact walk_eq_ok_iff.mpr (Or.inl (h.stride harrived))
    · cases hlinks
      exact walk_eq_ok_iff.mpr
        (Or.inr ⟨links, directory, target, rest, rfl, h.stride hlink, ih hrest⟩)

/-- **A path that leads somewhere leads there still.** -/
theorem OnlyFiles.find (h : OnlyFiles t t') (hfind : t.find path = .ok location) :
    t'.find path = .ok location := by
  unfold FileTree.find at hfind ⊢
  cases hcheck : checkPath path with
  | error e =>
    rw [hcheck] at hfind
    cases hfind
  | ok _ =>
    rw [hcheck] at hfind
    rw [h.workingDirectory]
    exact h.walk hfind

/-! ## Writing -/

/-- Whether a path leads to a special file, such as a device or a pipe. -/
def LeadsToSpecial (t : FileTree) (path : String) : Prop :=
  ∃ location s, t.find path = .ok location ∧ t.entry? location = some (.special s)

/-- **What a write does.** A file is made where nothing stood, or gets new content; and a special
file takes what is written to it. -/
theorem exists_find_of_writeBytes (h : t.writeBytes path content = .ok t') :
    ∃ location, t.find path = .ok location ∧
      ((t.entry? location = none ∧ t' = t.insert location (.file content)) ∨
        (∃ old, t.entry? location = some (.file old) ∧ t' = t.overwrite location content) ∨
          ∃ s, t.entry? location = some (.special s) ∧ s.accept content = .ok () ∧ t' = t) := by
  unfold writeBytes at h
  cases hfind : t.find path with
  | error e =>
    rw [hfind] at h
    cases h
  | ok location =>
    rw [hfind] at h
    refine ⟨location, rfl, ?_⟩
    simp only [bind, Except.bind, pure, Except.pure, throw, throwThe, MonadExceptOf.throw] at h
    split at h
    · next hnone =>
      cases h
      exact Or.inl ⟨hnone, rfl⟩
    · next old hold =>
      cases h
      exact Or.inr (Or.inl ⟨old, hold, rfl⟩)
    · next s hspecial =>
      split at h
      · cases h
      · next haccept =>
        cases h
        exact Or.inr (Or.inr ⟨s, hspecial, haccept, rfl⟩)
    · cases h
    · cases h

theorem readBytes_of_file (hfind : t.find path = .ok location)
    (hfile : t.entry? location = some (.file content)) : t.readBytes path = .ok content := by
  unfold readBytes
  rw [hfind]
  simp only [bind, Except.bind, hfile]
  rfl

/-- **What is written is read back**, unless the path leads to a special file. -/
theorem writeBytes_spec (h : t.writeBytes path content = .ok t') :
    t.LeadsToSpecial path ∨ t'.readBytes path = .ok content := by
  obtain ⟨location, hfind, ⟨hnone, rfl⟩ | ⟨old, hold, rfl⟩ | ⟨s, hspecial, -, -⟩⟩ :=
    exists_find_of_writeBytes h
  · exact Or.inr (readBytes_of_file ((onlyFiles_insert hnone).find hfind)
      (entry?_insert_self _ hnone))
  · have hnew : entry? (t.overwrite location content) location = some (.file content) := by
      rw [entry?_overwrite hold]
      refine if_pos ⟨?_, rfl⟩
      rintro rfl
      cases hold
    exact Or.inr (readBytes_of_file ((onlyFiles_overwrite hold).find hfind) hnew)
  · exact Or.inl ⟨location, s, hfind, hspecial⟩

/-- A file with two names, written by way of a symbolic link to one and read under the other. -/
example :
    let t : FileTree := {
      nodes := [.file ByteArray.empty, .symbolicLink "a"]
      names := [(["a"], 0), (["b"], 0), (["c"], 1)]
      workingDirectory := [] }
    (t.writeBytes "c" "text".toUTF8).bind (fun t' => t'.readBytes "b") = .ok "text".toUTF8 := by
  rfl

end FileTree

end ProtoSchema
