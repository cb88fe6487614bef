import ProtoSchema.CommandLine
import ProtoSchema.Proofs.Compilation.Batch
import ProtoSchema.Proofs.FileTree.Writing

/-!
# All or nothing on the command line

A request either compiles all of its files and delivers their encoding, or it fails and leaves the
file tree as it is; nothing is written before the last file is compiled. The command line adds the
files in a loop of its own; it agrees with that of the library (`addEach_eq_addFiles`), so the
files, the error and the encoding are the same.

Main statement: `CommandLine.Request.run_allOrNothing`, over all file trees and requests.
-/

namespace ProtoSchema.CommandLine

variable {r : Request} {tree : FileTree} {resolver : Resolver} {c : Compilation}
  {files : List FileDescriptor} {e : CompileError}

/-! ## Both loops -/

/-- **Both loops add the same files.** -/
theorem addEach_eq_addFiles (names : List String) (c : Compilation) :
    addEach c names =
      match Compilation.addFiles names c with
      | .ok () c' => .ok c'
      | .error e _ => .error e := by
  induction names generalizing c with
  | nil => rfl
  | cons name rest ih =>
    have hfiles : Compilation.addFiles (name :: rest) c
        = EStateM.bind (Compilation.addFile name) (fun _ => Compilation.addFiles rest) c := rfl
    rw [addEach, hfiles, EStateM.bind]
    cases Compilation.addFile name c with
    | ok file c' => exact ih c'
    | error e c' => rfl

namespace Request

/-- The policy under which the files of a request are read. -/
def policy (r : Request) : UnknownContent :=
  if r.strict then .reject else .skip

theorem start_eq (r : Request) (resolver : Resolver) :
    r.start resolver = (Compilation.start resolver).setPolicy r.policy := by
  unfold start policy
  cases r.strict <;> rfl

theorem addEach_start (r : Request) (resolver : Resolver) :
    addEach (r.start resolver) r.files = compile resolver r.policy r.files := by
  rw [addEach_eq_addFiles, start_eq]
  rfl

/-- **A request performs what the library compiles.** -/
theorem perform_eq (r : Request) (resolver : Resolver) :
    r.perform resolver = (compiledFiles resolver r.policy r.files).map fun files =>
      r.output.map fun path => (path, encodeSet files) := by
  unfold perform compiledFiles
  rw [addEach_start]
  cases compile resolver r.policy r.files <;> rfl

/-! ## A run of a request -/

/-- What the library makes of the files of a request. -/
def compiled (r : Request) (tree : FileTree) : Except CompileError (List FileDescriptor) :=
  compiledFiles (.inDirectory tree r.includeDirectory) r.policy r.files

/-- **Behind a compilation that succeeds the encoding is what is written.** -/
theorem perform_of_compiled (h : r.compiled tree = .ok files) :
    r.perform (.inDirectory tree r.includeDirectory)
      = .ok (r.output.map fun path => (path, encodeSet files)) := by
  unfold compiled at h
  rw [perform_eq, h]
  rfl

theorem run_of_error (h : r.compiled tree = .error e) :
    r.run tree = { exitCode := 1, printed := "", tree } := by
  unfold compiled at h
  unfold run
  rw [perform_eq, h]
  rfl

/-- Behind a compilation that succeeds, all that can fail is to write the output. -/
theorem run_of_compiled (h : r.compiled tree = .ok files) :
    r.run tree =
      match r.output with
      | none => { exitCode := 0, printed := "", tree }
      | some path =>
        match tree.writeBytes path (encodeSet files) with
        | .ok tree => { exitCode := 0, printed := "", tree }
        | .error _ => { exitCode := 1, printed := "", tree } := by
  unfold run
  rw [perform_of_compiled h]
  cases r.output <;> rfl

/-- **A run succeeds exactly if every file is compiled and the output, if any, is written.** -/
theorem exitCode_run_eq_zero_iff :
    (r.run tree).exitCode = 0 ↔
      ∃ files, r.compiled tree = .ok files ∧
        ∀ path, r.output = some path →
          ∃ tree', tree.writeBytes path (encodeSet files) = .ok tree' := by
  cases hcompiled : r.compiled tree with
  | error e => simp [run_of_error hcompiled]
  | ok files =>
    rw [run_of_compiled hcompiled]
    cases r.output with
    | none => simp
    | some path => cases hwrite : tree.writeBytes path (encodeSet files) <;> simp [hwrite]

/-- **A run that succeeds without an output path changes nothing.** -/
theorem tree_of_run (houtput : r.output = none) (hcompiled : r.compiled tree = .ok files) :
    (r.run tree).tree = tree := by
  rw [run_of_compiled hcompiled, houtput]

/-- **A run that succeeds leaves the encoding at its output path.** -/
theorem readBytes_of_run {path : String} (houtput : r.output = some path)
    (hcompiled : r.compiled tree = .ok files) (h : (r.run tree).exitCode = 0) :
    tree.LeadsToSpecial path ∨ (r.run tree).tree.readBytes path = .ok (encodeSet files) := by
  rw [run_of_compiled hcompiled, houtput] at h ⊢
  dsimp only at h ⊢
  cases hwrite : tree.writeBytes path (encodeSet files) with
  | ok tree' => exact FileTree.writeBytes_spec hwrite
  | error cause =>
    rw [hwrite] at h
    cases h

/-! ## Strict requests -/

/-- **What compiles under refusal compiles to the same where unknown content is skipped.** -/
theorem compiledFiles_skip_of_reject {names : List String}
    (h : compiledFiles resolver .reject names = .ok files) :
    compiledFiles resolver .skip names = .ok files := by
  obtain ⟨c, hcompile, rfl⟩ := compiledFiles_eq_ok_iff.mp h
  obtain ⟨c', hskip, hfiles⟩ := compile_skip_of_reject hcompile
  exact compiledFiles_eq_ok_iff.mpr ⟨c', hskip, congrArg Array.toList hfiles⟩

/-- **A strict request that succeeds might as well not have been strict.** -/
theorem perform_of_strict {write : Option (String × ByteArray)}
    (h : r.perform resolver = .ok write) :
    { r with strict := false }.perform resolver = .ok write := by
  obtain ⟨names, directory, output, strict⟩ := r
  cases strict with
  | false => exact h
  | true =>
    rw [perform_eq] at h ⊢
    cases hcompiled : compiledFiles resolver .reject names with
    | error e => simp [policy, hcompiled, Except.map] at h
    | ok files =>
      have hskip := compiledFiles_skip_of_reject hcompiled
      simp only [policy, hcompiled, if_true] at h
      simp only [policy, hskip, Bool.false_eq_true, if_false]
      exact h

theorem run_of_strict (h : (r.run tree).exitCode = 0) :
    { r with strict := false }.run tree = r.run tree := by
  obtain ⟨files, hcompiled, -⟩ := exitCode_run_eq_zero_iff.mp h
  have hperform := perform_of_compiled hcompiled
  unfold run
  rw [perform_of_strict hperform, hperform]

/-! ## All or nothing -/

/-- **All files or none, on the command line.** In any directory of any file tree, a list of names
is compiled all or not at all, and the command line agrees with the library: it fails with the same
error, or has the encoding of the same files to write. It succeeds exactly if the files are compiled
and the output, where there is one, can be written; then the encoding is what the output path holds,
unless it leads to a special file. If any file fails, the tree stays as it is, also where something
stands at the output path already, be it one of the files. A strict run that succeeds writes and
leaves behind the same as one that is not strict. -/
theorem run_allOrNothing (tree : FileTree) (directory : String) (names : List String)
    (output : Option String) (strict : Bool) :
    let resolver := Resolver.inDirectory tree directory
    let policy : UnknownContent := if strict then .reject else .skip
    let compiled :=
      if strict then compiledFiles resolver .reject names else compileFiles tree names directory
    let request : Request := { files := names, includeDirectory := directory, output, strict }
    let outcome := request.run tree
    AllOrNothing resolver policy names compiled ∧
      request.perform resolver
        = compiled.map (fun files => output.map fun path => (path, encodeSet files)) ∧
      (outcome.exitCode = 0 ↔
        ∃ files, compiled = .ok files ∧
          ∀ path, output = some path →
            ∃ tree', tree.writeBytes path (encodeSet files) = .ok tree') ∧
      (outcome.exitCode = 0 → ∀ files, compiled = .ok files →
        (output = none → outcome.tree = tree) ∧
          ∀ path, output = some path →
            tree.LeadsToSpecial path ∨ outcome.tree.readBytes path = .ok (encodeSet files)) ∧
      (∀ name e, name ∈ names → resolver.FailsWith policy name e →
        outcome.exitCode = 1 ∧ outcome.tree = tree) ∧
      (outcome.exitCode = 0 →
        { request with strict := false }.run tree = outcome ∧
          { request with strict := false }.perform resolver = request.perform resolver) := by
  intro resolver policy compiled request outcome
  have hcompiled : compiled = request.compiled tree := by
    cases strict with
    | false => exact compileFiles_eq tree names directory
    | true => rfl
  have hbatch : AllOrNothing resolver policy names (request.compiled tree) :=
    compile_allOrNothing tree directory policy names
  rw [hcompiled]
  refine ⟨hbatch, perform_eq request resolver, exitCode_run_eq_zero_iff, ?_, ?_, ?_⟩
  · intro hexit files hfiles
    refine ⟨fun houtput => tree_of_run houtput hfiles, ?_⟩
    intro path houtput
    exact readBytes_of_run houtput hfiles hexit
  · intro name e hname hfails
    obtain ⟨e', hrun⟩ := hbatch.exists_error hname hfails
    have houtcome : outcome = { exitCode := 1, printed := "", tree } := run_of_error hrun
    rw [houtcome]
    exact ⟨rfl, rfl⟩
  · intro hexit
    refine ⟨run_of_strict hexit, ?_⟩
    obtain ⟨files, hfiles, -⟩ := exitCode_run_eq_zero_iff.mp hexit
    have hperform : request.perform resolver = _ := perform_of_compiled hfiles
    rw [perform_of_strict hperform, hperform]

/-- The null device takes the encoding and keeps nothing of it. -/
theorem run_discarded :
    let tree := FileTree.fresh.addEntry "a.proto" (.file ByteArray.empty)
    let request : Request := { files := ["a.proto"], includeDirectory := ".",
                               output := some "/dev/null", strict := false }
    let outcome := request.run tree
    outcome.exitCode = 0 ∧
      ∃ files, compileFiles tree ["a.proto"] "." = .ok files ∧
        outcome.tree.readBytes "/dev/null" ≠ .ok (encodeSet files) := by
  intro tree request outcome
  refine ⟨by decide +kernel, [{ name := some "a.proto", package := none, messages := [] }],
    by decide +kernel, ?_⟩
  have hdevice : outcome.tree.readBytes "/dev/null" = .ok ByteArray.empty := by decide +kernel
  rw [hdevice]
  decide +kernel

end Request

end ProtoSchema.CommandLine
