import Mathlib.Data.List.Forall2
import ProtoSchema.Proofs.Compilation.History
import ProtoSchema.Proofs.Declaration.UnknownContent

/-!
# Compiling several files

Files are compiled in turn, and the first that fails ends it all. So a list of names is compiled if
and only if each of them is found and read; then the descriptors are those of the names, in their
order. Otherwise the error is that of the first name that fails, whatever stands behind it.

Main statements: `compile_eq_ok_iff` and `compile_eq_error_iff`, together `compile_allOrNothing`.
Where unknown content is refused, what is compiled is the same as where it is skipped
(`compile_skip_of_reject`).
-/

namespace ProtoSchema

variable {r : Resolver} {policy : UnknownContent} {name : String} {names : List String}
  {file : FileDescriptor} {files : List FileDescriptor} {e : CompileError} {c : Compilation}

/-! ## Adding files -/

namespace Compilation

/-- A file that is read is added, and the others follow. -/
theorem addFiles_cons_of_reads (rest : List String) (h : c.resolver.Reads c.policy name file) :
    ∃ c', addFiles (name :: rest) c = addFiles rest c' ∧ c'.resolver = c.resolver ∧
      c'.policy = c.policy ∧ c'.files = c.files.push file := by
  obtain ⟨log, hadd⟩ := addFile_eq name c
  rw [Resolver.parseFile_eq_ok_iff.mpr h] at hadd
  refine ⟨{ c with files := c.files.push file, log }, ?_, rfl, rfl, rfl⟩
  show EStateM.bind (addFile name) (fun _ => addFiles rest) c = _
  rw [EStateM.bind, hadd]

/-- A file that fails ends it all. -/
theorem addFiles_cons_of_failsWith (rest : List String)
    (h : c.resolver.FailsWith c.policy name e) : ∃ c', addFiles (name :: rest) c = .error e c' := by
  obtain ⟨log, hadd⟩ := addFile_eq name c
  rw [Resolver.parseFile_eq_error_iff.mpr h] at hadd
  refine ⟨{ c with log }, ?_⟩
  show EStateM.bind (addFile name) (fun _ => addFiles rest) c = _
  rw [EStateM.bind, hadd]

/-- **Files that are read are added one after the other.** -/
theorem addFiles_of_reads (rest : List String) (hresolver : c.resolver = r)
    (hpolicy : c.policy = policy) (h : List.Forall₂ (r.Reads policy) names files) :
    ∃ c', addFiles (names ++ rest) c = addFiles rest c' ∧ c'.resolver = r ∧ c'.policy = policy ∧
      c'.files.toList = c.files.toList ++ files := by
  induction h generalizing c with
  | nil => exact ⟨c, rfl, hresolver, hpolicy, (List.append_nil _).symm⟩
  | @cons name file names files hread _ ih =>
    subst hresolver hpolicy
    obtain ⟨c₁, hadd, hresolver₁, hpolicy₁, hfiles₁⟩ := addFiles_cons_of_reads (names ++ rest) hread
    obtain ⟨c₂, hrest, hresolver₂, hpolicy₂, hfiles₂⟩ := ih hresolver₁ hpolicy₁
    refine ⟨c₂, hadd.trans hrest, hresolver₂, hpolicy₂, ?_⟩
    rw [hfiles₂, hfiles₁, Array.toList_push, List.append_assoc]
    rfl

end Compilation

/-! ## All files, or the first that fails -/

/-- Either every name is read, or there is a first one that fails. -/
theorem Resolver.exists_files_or_first (r : Resolver) (policy : UnknownContent)
    (names : List String) :
    (∃ files, List.Forall₂ (r.Reads policy) names files) ∨
      ∃ before name later files e, names = before ++ name :: later ∧
        List.Forall₂ (r.Reads policy) before files ∧ r.FailsWith policy name e := by
  induction names with
  | nil => exact Or.inl ⟨[], .nil⟩
  | cons name names ih =>
    cases hfile : r.parseFile policy name with
    | error e =>
      exact Or.inr ⟨[], name, names, [], e, rfl, .nil, parseFile_eq_error_iff.mp hfile⟩
    | ok file =>
      have hread : r.Reads policy name file := parseFile_eq_ok_iff.mp hfile
      rcases ih with ⟨files, hfiles⟩ | ⟨before, name', later, files, e, rfl, hfiles, hfails⟩
      · exact Or.inl ⟨file :: files, .cons hread hfiles⟩
      · exact Or.inr ⟨name :: before, name', later, file :: files, e, rfl, .cons hread hfiles,
          hfails⟩

theorem compile_of_reads (h : List.Forall₂ (r.Reads policy) names files) :
    ∃ c, compile r policy names = .ok c ∧ c.files.toList = files := by
  have hstart : ((Compilation.start r).setPolicy policy).resolver = r := rfl
  obtain ⟨c, hadd, -, -, hfiles⟩ := Compilation.addFiles_of_reads [] hstart rfl h
  rw [List.append_nil] at hadd
  refine ⟨c, ?_, hfiles⟩
  rw [compile, hadd]
  rfl

theorem compile_of_failsWith {before : List String} (later : List String)
    (hbefore : List.Forall₂ (r.Reads policy) before files) (h : r.FailsWith policy name e) :
    compile r policy (before ++ name :: later) = .error e := by
  have hstart : ((Compilation.start r).setPolicy policy).resolver = r := rfl
  obtain ⟨c, hadd, rfl, rfl, -⟩ :=
    Compilation.addFiles_of_reads (name :: later) hstart rfl hbefore
  obtain ⟨c', hlast⟩ := Compilation.addFiles_cons_of_failsWith later h
  rw [compile, hadd, hlast]

/-- **Files are compiled if every one of them is found and read.** -/
theorem compile_eq_ok_iff :
    (∃ c, compile r policy names = .ok c ∧ c.files.toList = files) ↔
      List.Forall₂ (r.Reads policy) names files := by
  refine ⟨?_, compile_of_reads⟩
  rintro ⟨c, hcompile, hfiles⟩
  rcases r.exists_files_or_first policy names with
    ⟨files', hreads⟩ | ⟨before, name, later, files', e, rfl, hbefore, hfails⟩
  · obtain ⟨c', hcompile', hfiles'⟩ := compile_of_reads hreads
    rw [hcompile] at hcompile'
    cases hcompile'
    rw [← hfiles, hfiles']
    exact hreads
  · rw [compile_of_failsWith later hbefore hfails] at hcompile
    cases hcompile

/-- **Compiling succeeds if and only if no file fails.** -/
theorem exists_compile_iff :
    (∃ c, compile r policy names = .ok c) ↔ ∀ name ∈ names, ∃ file, r.Reads policy name file := by
  constructor
  · rintro ⟨c, hcompile⟩
    have hreads : List.Forall₂ (r.Reads policy) names c.files.toList :=
      compile_eq_ok_iff.mp ⟨c, hcompile, rfl⟩
    generalize c.files.toList = files at hreads
    clear hcompile
    induction hreads with
    | nil => simp
    | @cons name file names files hread _ ih => exact List.forall_mem_cons.mpr ⟨⟨file, hread⟩, ih⟩
  · intro hall
    rcases r.exists_files_or_first policy names with
      ⟨files, hreads⟩ | ⟨before, name, later, files, e, rfl, -, hfails⟩
    · obtain ⟨c, hcompile, -⟩ := compile_of_reads hreads
      exact ⟨c, hcompile⟩
    · obtain ⟨file, hread⟩ := hall name (by simp)
      exact absurd hfails (hread.not_failsWith e)

/-- **The error is that of the first file that fails.** -/
theorem compile_eq_error_iff :
    compile r policy names = .error e ↔
      ∃ before name later files, names = before ++ name :: later ∧
        List.Forall₂ (r.Reads policy) before files ∧ r.FailsWith policy name e := by
  constructor
  · intro hcompile
    rcases r.exists_files_or_first policy names with
      ⟨files, hreads⟩ | ⟨before, name, later, files, e', rfl, hbefore, hfails⟩
    · obtain ⟨c, hcompile', -⟩ := compile_of_reads hreads
      rw [hcompile] at hcompile'
      cases hcompile'
    · rw [compile_of_failsWith later hbefore hfails] at hcompile
      cases hcompile
      exact ⟨before, name, later, files, rfl, hbefore, hfails⟩
  · rintro ⟨before, name, later, files, rfl, hbefore, hfails⟩
    exact compile_of_failsWith later hbefore hfails

/-! ## Both policies -/

/-- **Refusing unknown content compiles nothing else.** -/
theorem compile_skip_of_reject (h : compile r .reject names = .ok c) :
    ∃ c', compile r .skip names = .ok c' ∧ c'.files = c.files := by
  have hreject : List.Forall₂ (r.Reads .reject) names c.files.toList :=
    compile_eq_ok_iff.mp ⟨c, h, rfl⟩
  have hskip : List.Forall₂ (r.Reads .skip) names c.files.toList := by
    refine hreject.imp ?_
    rintro name file ⟨source, hopen, hparse⟩
    exact ⟨source, hopen, parse_skip_of_reject hparse⟩
  obtain ⟨c', hcompile, hfiles⟩ := compile_of_reads hskip
  exact ⟨c', hcompile, Array.toList_inj.mp hfiles⟩

/-! ## The files of a directory -/

/-- **An error of a file in a directory carries its name.** -/
theorem Resolver.file?_of_failsWith {tree : FileTree} {directory : String}
    (h : (inDirectory tree directory).FailsWith policy name e) : e.file? = some name := by
  rcases h with hopen | ⟨source, cause, -, -, rfl⟩
  · unfold inDirectory openFile ofAccess at hopen
    dsimp only at hopen
    split at hopen
    · cases hopen
    · cases hopen
      rfl
    · cases hopen
      rfl
  · rfl

/-- All files or none: a list of names is compiled if and only if each of them is found and read, to
their descriptors in the same order; otherwise the error is that of the first name that fails, and
carries it. -/
structure AllOrNothing (r : Resolver) (policy : UnknownContent) (names : List String)
    (result : Except CompileError (List FileDescriptor)) : Prop where
  ok_iff : (∃ files, result = .ok files) ↔ ∀ name ∈ names, ∃ file, r.Reads policy name file
  files : ∀ files, result = .ok files →
    List.Forall₂ (fun name file => r.Reads policy name file ∧ file.name = some name) names files
  error_iff : ∀ e, result = .error e ↔
    ∃ before name later files, names = before ++ name :: later ∧
      List.Forall₂ (r.Reads policy) before files ∧ r.FailsWith policy name e
  carries : ∀ name e, r.FailsWith policy name e → e.file? = some name

theorem AllOrNothing.exists_error {result : Except CompileError (List FileDescriptor)}
    (h : AllOrNothing r policy names result) (hname : name ∈ names)
    (hfails : r.FailsWith policy name e) : ∃ e', result = .error e' := by
  cases result with
  | error e' => exact ⟨e', rfl⟩
  | ok files =>
    obtain ⟨file, hread⟩ := h.ok_iff.mp ⟨files, rfl⟩ name hname
    exact absurd hfails (hread.not_failsWith e)

variable {tree : FileTree} {directory : String}

/-- What a list of names is compiled to, without the compilation around it. -/
def compiledFiles (r : Resolver) (policy : UnknownContent) (names : List String) :
    Except CompileError (List FileDescriptor) :=
  (compile r policy names).map fun c => c.files.toList

theorem compiledFiles_eq_ok_iff :
    compiledFiles r policy names = .ok files ↔
      ∃ c, compile r policy names = .ok c ∧ c.files.toList = files := by
  unfold compiledFiles
  cases compile r policy names <;> simp [Except.map]

theorem compiledFiles_eq_error_iff :
    compiledFiles r policy names = .error e ↔ compile r policy names = .error e := by
  unfold compiledFiles
  cases compile r policy names <;> simp [Except.map]

/-- **The files of a directory are compiled all or not at all.** -/
theorem compile_allOrNothing (tree : FileTree) (directory : String) (policy : UnknownContent)
    (names : List String) :
    AllOrNothing (.inDirectory tree directory) policy names
      (compiledFiles (.inDirectory tree directory) policy names) where
  ok_iff := by
    rw [← exists_compile_iff]
    constructor
    · rintro ⟨files, hfiles⟩
      obtain ⟨c, hcompile, -⟩ := compiledFiles_eq_ok_iff.mp hfiles
      exact ⟨c, hcompile⟩
    · rintro ⟨c, hcompile⟩
      exact ⟨_, compiledFiles_eq_ok_iff.mpr ⟨c, hcompile, rfl⟩⟩
  files := by
    intro files hfiles
    have hreads := compile_eq_ok_iff.mp (compiledFiles_eq_ok_iff.mp hfiles)
    exact hreads.imp fun name file hread => ⟨hread, hread.name_eq⟩
  error_iff := fun e => compiledFiles_eq_error_iff.trans compile_eq_error_iff
  carries := fun name e => Resolver.file?_of_failsWith

/-- Unknown content is skipped unless asked otherwise. -/
theorem compileFiles_eq (tree : FileTree) (names : List String) (directory : String) :
    compileFiles tree names directory
      = compiledFiles (.inDirectory tree directory) .skip names := by
  unfold compileFiles compiledFiles compile
  have hstart : (Compilation.start (.inDirectory tree directory)).setPolicy .skip
      = .start (.inDirectory tree directory) := rfl
  rw [hstart]
  cases Compilation.addFiles names (.start (.inDirectory tree directory)) <;> rfl

end ProtoSchema
