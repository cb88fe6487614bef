import ProtoSchema.Compilation
import ProtoSchema.Proofs.Grammar.Recognition

/-!
# The history of a compilation

A compilation is changed by calls: the policy is set, or a file is added. A call that adds a file
answers from the resolver, the name and the policy that was set last, and from nothing else that
happened before. So the files of a compilation are a log of the calls that succeeded: each success
adds one descriptor at the end, and a failure leaves no trace in it.

`Resolver.Reads` and `Resolver.FailsWith` say what becomes of one file, without a compilation around
it; `Resolver.parseFile` computes it.

Main statement: `Compilation.files_log`, over every sequence of calls.
-/

namespace ProtoSchema

/-! ## One file -/

/-- A file is found under a name, and its text is accepted. -/
def Resolver.Reads (r : Resolver) (policy : UnknownContent) (name : String)
    (file : FileDescriptor) : Prop :=
  ∃ source, r.openFile name = .ok source ∧ parse policy name source.content = .ok file

/-- A file fails: the resolver says why, or its text is refused. -/
def Resolver.FailsWith (r : Resolver) (policy : UnknownContent) (name : String)
    (e : CompileError) : Prop :=
  r.openFile name = .error e ∨
    ∃ source cause, r.openFile name = .ok source ∧
      parse policy name source.content = .error cause ∧ e = .refused name source.content cause

/-- Opens a file and reads it. -/
def Resolver.parseFile (r : Resolver) (policy : UnknownContent) (name : String) :
    Except CompileError FileDescriptor :=
  match r.openFile name with
  | .error e => .error e
  | .ok source =>
    match parse policy name source.content with
    | .ok file => .ok file
    | .error e => .error (.refused name source.content e)

section

variable {r : Resolver} {policy : UnknownContent} {name : String}

theorem Resolver.parseFile_eq_ok_iff {file : FileDescriptor} :
    r.parseFile policy name = .ok file ↔ r.Reads policy name file := by
  unfold parseFile Reads
  cases r.openFile name with
  | error e => simp
  | ok source => cases hparse : parse policy name source.content <;> simp [hparse]

theorem Resolver.parseFile_eq_error_iff {e : CompileError} :
    r.parseFile policy name = .error e ↔ r.FailsWith policy name e := by
  unfold parseFile FailsWith
  cases r.openFile name with
  | error e' => simp
  | ok source =>
    cases hparse : parse policy name source.content with
    | ok file => simp [hparse]
    | error cause => simp [hparse, eq_comm]

/-- A file that is read does not fail. -/
theorem Resolver.Reads.not_failsWith {file : FileDescriptor} (h : r.Reads policy name file)
    (e : CompileError) : ¬r.FailsWith policy name e := by
  intro hfails
  rw [← parseFile_eq_ok_iff] at h
  rw [← parseFile_eq_error_iff, h] at hfails
  cases hfails

theorem Resolver.Reads.name_eq {file : FileDescriptor} (h : r.Reads policy name file) :
    file.name = some name := by
  obtain ⟨source, -, hparse⟩ := h
  exact name_of_parse hparse

end

namespace Compilation

/-- **Adding a file.** The descriptor of a file that is read goes to the end of the files; the log of
events apart, nothing else is changed, and nothing at all by a failure. -/
theorem addFile_eq (name : String) (c : Compilation) :
    ∃ log, addFile name c =
      match c.resolver.parseFile c.policy name with
      | .ok file => .ok file { c with files := c.files.push file, log }
      | .error e => .error e { c with log } := by
  unfold addFile Resolver.parseFile parse
  cases c.resolver.openFile name with
  | error e => exact ⟨c.log, rfl⟩
  | ok source =>
    dsimp only [record]
    cases Declaration.file c.policy name (.ofSource source.content) with
    | ok file cursor => exact ⟨_, rfl⟩
    | error e cursor => exact ⟨_, rfl⟩

/-! ## Calls -/

/-- What may be asked of a compilation. -/
inductive Call where
  | setPolicy (policy : UnknownContent)
  | addFile (name : String)

/-- What is answered. -/
inductive Answer where
  | policySet
  | added (file : FileDescriptor)
  | failed (e : CompileError)

/-- The file that was added. -/
def Answer.file? : Answer → Option FileDescriptor
  | .added file => some file
  | .policySet => none
  | .failed _ => none

/-- Carries out a call: its answer, and the compilation afterwards. -/
def Call.run : Call → Compilation → Answer × Compilation
  | .setPolicy policy, c => (.policySet, c.setPolicy policy)
  | .addFile name, c =>
    match Compilation.addFile name c with
    | .ok file c' => (.added file, c')
    | .error e c' => (.failed e, c')

/-- The compilation after some calls. -/
def after (c : Compilation) (calls : List Call) : Compilation :=
  calls.foldl (fun c call => (call.run c).2) c

/-- The answers to some calls. -/
def answers (c : Compilation) : List Call → List Answer
  | [] => []
  | call :: rest => (call.run c).1 :: answers (call.run c).2 rest

/-! ## What a call answers -/

/-- The policy that a call sets. -/
def Call.policy? : Call → Option UnknownContent
  | .setPolicy policy => some policy
  | .addFile _ => none

/-- The policy that is in force behind some calls. -/
def lastPolicy (calls : List Call) : UnknownContent :=
  (calls.filterMap Call.policy?).getLast?.getD .skip

/-- The answer to a call where a resolver and a policy are given, and no compilation. -/
def Call.answer (r : Resolver) (policy : UnknownContent) : Call → Answer
  | .setPolicy _ => .policySet
  | .addFile name =>
    match r.parseFile policy name with
    | .ok file => .added file
    | .error e => .failed e

/-- **One call.** It is answered from the resolver and the policy alone; it keeps the resolver, sets
the policy if it is such a call, and adds the file of its answer, if there is one. -/
theorem Call.run_spec (call : Call) (c : Compilation) :
    (call.run c).1 = call.answer c.resolver c.policy ∧
      (call.run c).2.resolver = c.resolver ∧
        (call.run c).2.policy = call.policy?.getD c.policy ∧
          (call.run c).2.files.toList
            = c.files.toList ++ (call.answer c.resolver c.policy).file?.toList := by
  cases call with
  | setPolicy policy => exact ⟨rfl, rfl, rfl, (List.append_nil _).symm⟩
  | addFile name =>
    obtain ⟨log, hadd⟩ := addFile_eq name c
    rw [run, answer, hadd]
    cases c.resolver.parseFile c.policy name with
    | ok file => exact ⟨rfl, rfl, rfl, Array.toList_push⟩
    | error e => exact ⟨rfl, rfl, rfl, (List.append_nil _).symm⟩

/-! ## Several calls -/

theorem after_append (c : Compilation) (before later : List Call) :
    c.after (before ++ later) = (c.after before).after later :=
  List.foldl_append

theorem answers_append (c : Compilation) (before later : List Call) :
    c.answers (before ++ later) = c.answers before ++ (c.after before).answers later := by
  induction before generalizing c with
  | nil => rfl
  | cons call before ih => exact congrArg ((call.run c).1 :: ·) (ih (call.run c).2)

theorem length_answers (c : Compilation) (calls : List Call) :
    (c.answers calls).length = calls.length := by
  induction calls generalizing c with
  | nil => rfl
  | cons call rest ih => exact congrArg (· + 1) (ih (call.run c).2)

theorem resolver_after (c : Compilation) (calls : List Call) :
    (c.after calls).resolver = c.resolver := by
  induction calls generalizing c with
  | nil => rfl
  | cons call rest ih =>
    obtain ⟨-, hresolver, -, -⟩ := call.run_spec c
    exact (ih (call.run c).2).trans hresolver

theorem policy_after (c : Compilation) (calls : List Call) :
    (c.after calls).policy = (calls.filterMap Call.policy?).getLast?.getD c.policy := by
  induction calls generalizing c with
  | nil => rfl
  | cons call rest ih =>
    obtain ⟨-, -, hpolicy, -⟩ := call.run_spec c
    show ((call.run c).2.after rest).policy = _
    rw [ih, hpolicy, List.filterMap_cons]
    cases call.policy? with
    | none => rfl
    | some policy =>
      rw [List.getLast?_cons]
      cases (rest.filterMap Call.policy?).getLast? <;> rfl

/-- **The files only grow, by those of the calls that succeed.** -/
theorem files_after (c : Compilation) (calls : List Call) :
    (c.after calls).files.toList
      = c.files.toList ++ (c.answers calls).filterMap Answer.file? := by
  induction calls generalizing c with
  | nil => exact (List.append_nil _).symm
  | cons call rest ih =>
    obtain ⟨hanswer, -, -, hfiles⟩ := call.run_spec c
    show ((call.run c).2.after rest).files.toList = _
    rw [ih, hfiles, answers, hanswer, List.filterMap_cons, List.append_assoc]
    cases (call.answer c.resolver c.policy).file? <;> rfl

/-- **Answers depend on what was done before only through the resolver and the policy.** -/
theorem answers_congr {c c' : Compilation} (hresolver : c.resolver = c'.resolver)
    (hpolicy : c.policy = c'.policy) (calls : List Call) : c.answers calls = c'.answers calls := by
  induction calls generalizing c c' with
  | nil => rfl
  | cons call rest ih =>
    obtain ⟨hanswer, hkept, hset, -⟩ := call.run_spec c
    obtain ⟨hanswer', hkept', hset', -⟩ := call.run_spec c'
    rw [answers, answers, hanswer, hanswer', hresolver, hpolicy]
    refine congrArg _ (ih ?_ ?_)
    · rw [hkept, hkept', hresolver]
    · rw [hset, hset', hpolicy]

/-- **A call among others is answered by itself.** -/
theorem answers_start (resolver : Resolver) (before : List Call) (call : Call) (later : List Call) :
    (start resolver).answers (before ++ call :: later)
      = (start resolver).answers before ++ call.answer resolver (lastPolicy before) ::
          ((start resolver).after (before ++ [call])).answers later := by
  obtain ⟨hanswer, -, -, -⟩ := call.run_spec ((start resolver).after before)
  rw [answers_append, answers, hanswer, resolver_after, policy_after, after_append]
  rfl

theorem getElem?_answers (resolver : Resolver) (before : List Call) (call : Call)
    (later : List Call) :
    ((start resolver).answers (before ++ call :: later))[before.length]?
      = some (call.answer resolver (lastPolicy before)) := by
  have hlength := (start resolver).length_answers before
  rw [answers_start, List.getElem?_append_right (Nat.le_of_eq hlength), hlength, Nat.sub_self]
  rfl

theorem name_of_added {resolver : Resolver} {before later : List Call} {name : String}
    {file : FileDescriptor}
    (h : ((start resolver).answers (before ++ .addFile name :: later))[before.length]?
      = some (.added file)) : file.name = some name := by
  rw [getElem?_answers, Option.some.injEq, Call.answer] at h
  cases hfile : resolver.parseFile (lastPolicy before) name with
  | error e =>
    rw [hfile] at h
    cases h
  | ok file' =>
    rw [hfile] at h
    cases h
    exact (Resolver.parseFile_eq_ok_iff.mp hfile).name_eq

/-! ## Failures -/

/-- What a failing call leaves behind. -/
theorem after_failed {resolver : Resolver} {before : List Call} {name : String} {e : CompileError}
    (h : resolver.parseFile (lastPolicy before) name = .error e) :
    let c := (start resolver).after before
    let c' := (start resolver).after (before ++ [.addFile name])
    c'.files = c.files ∧ c'.policy = c.policy ∧ c'.resolver = c.resolver := by
  intro c c'
  have hresolver : c.resolver = resolver := resolver_after _ _
  have hpolicy : c.policy = lastPolicy before := policy_after _ _
  obtain ⟨log, hadd⟩ := addFile_eq name c
  have hfile : c.resolver.parseFile c.policy name = .error e := by rw [hresolver, hpolicy, h]
  rw [hfile] at hadd
  have hc' : c' = { c with log } := by
    show (start resolver).after (before ++ [.addFile name]) = _
    rw [after_append]
    show (Call.run (.addFile name) c).2 = _
    rw [Call.run, hadd]
  rw [hc']
  exact ⟨rfl, rfl, rfl⟩

/-- **A failing call might as well not have been made.** -/
theorem answers_without {resolver : Resolver} {before later : List Call} {name : String}
    {e : CompileError} (h : resolver.parseFile (lastPolicy before) name = .error e) :
    (start resolver).answers (before ++ later)
        = ((start resolver).answers (before ++ .addFile name :: later)).eraseIdx before.length ∧
      ((start resolver).after (before ++ later)).files
        = ((start resolver).after (before ++ .addFile name :: later)).files ∧
      ((start resolver).after (before ++ later)).policy
        = ((start resolver).after (before ++ .addFile name :: later)).policy := by
  obtain ⟨hfiles, hpolicy, hresolver⟩ := after_failed h
  have hlength := (start resolver).length_answers before
  have hsplit : before ++ .addFile name :: later = (before ++ [.addFile name]) ++ later := by
    rw [List.append_assoc, List.singleton_append]
  have hlater := answers_congr hresolver hpolicy later
  refine ⟨?_, ?_, ?_⟩
  · rw [answers_start, List.eraseIdx_append_of_length_le (Nat.le_of_eq hlength), hlength,
      Nat.sub_self, List.eraseIdx_cons_zero, hlater, answers_append]
  · rw [← Array.toList_inj, hsplit, after_append, after_append _ _ later, files_after _ later,
      files_after _ later, hlater, hfiles]
  · rw [hsplit, after_append, after_append _ _ later, policy_after _ later, policy_after _ later,
      hpolicy]

/-! ## The log -/

/-- Two answers at different places are both there, in the order of their places. -/
theorem sublist_of_getElem? {answers : List Answer} {i j : Nat} {a b : Answer} (hlt : i < j)
    (ha : answers[i]? = some a) (hb : answers[j]? = some b) : [a, b].Sublist answers := by
  have hfront : a ∈ answers.take j := by
    refine List.mem_iff_getElem?.mpr ⟨i, ?_⟩
    rw [List.getElem?_take_of_lt hlt, ha]
  have hback : b ∈ answers.drop j := by
    refine List.mem_iff_getElem?.mpr ⟨0, ?_⟩
    rw [List.getElem?_drop, Nat.add_zero, hb]
  rw [← List.take_append_drop j answers]
  exact (List.singleton_sublist.mpr hfront).append (List.singleton_sublist.mpr hback)

/-- **A compilation is an append-only log of the files that were read.** Its files are those of the
calls that succeeded, in their order; a name that is added twice counts twice. A call that adds a
file opens it and reads it under the policy that was set last before. It fails as the resolver does,
or because the text is refused; then the files and the policy are as before, and every other call is
answered as if this one had not been made. -/
theorem files_log (resolver : Resolver) (calls : List Call) :
    let start := start resolver
    let answers := start.answers calls
    ((start.after calls).files.toList = answers.filterMap Answer.file? ∧
        answers.length = calls.length) ∧
      (∀ before policy later, calls = before ++ .setPolicy policy :: later →
        answers[before.length]? = some .policySet) ∧
      (∀ before name later, calls = before ++ .addFile name :: later →
        (∃ file, answers[before.length]? = some (.added file) ∧
            resolver.Reads (lastPolicy before) name file) ∨
          ∃ e, answers[before.length]? = some (.failed e) ∧
            resolver.FailsWith (lastPolicy before) name e ∧
            ((start.after (before ++ [.addFile name])).files = (start.after before).files ∧
              (start.after (before ++ [.addFile name])).policy = (start.after before).policy) ∧
            start.answers (before ++ later) = answers.eraseIdx before.length ∧
              (start.after (before ++ later)).files = (start.after calls).files ∧
                (start.after (before ++ later)).policy = (start.after calls).policy) ∧
      ∀ before name middle later file file',
        calls = before ++ .addFile name :: middle ++ .addFile name :: later →
          answers[before.length]? = some (.added file) →
            answers[(before ++ .addFile name :: middle).length]? = some (.added file') →
              (file.name = some name ∧ file'.name = some name) ∧
                [file, file'].Sublist (start.after calls).files.toList := by
  intro start answers
  have hfiles : (start.after calls).files.toList = answers.filterMap Answer.file? :=
    files_after start calls
  refine ⟨⟨hfiles, length_answers start calls⟩, ?_, ?_, ?_⟩
  · rintro before policy later rfl
    exact getElem?_answers resolver before (.setPolicy policy) later
  · rintro before name later rfl
    have hanswer := getElem?_answers resolver before (.addFile name) later
    rw [Call.answer] at hanswer
    cases hfile : resolver.parseFile (lastPolicy before) name with
    | ok file =>
      rw [hfile] at hanswer
      exact Or.inl ⟨file, hanswer, Resolver.parseFile_eq_ok_iff.mp hfile⟩
    | error e =>
      rw [hfile] at hanswer
      obtain ⟨hkept, hpolicy, -⟩ := after_failed hfile
      exact Or.inr ⟨e, hanswer, Resolver.parseFile_eq_error_iff.mp hfile, ⟨hkept, hpolicy⟩,
        answers_without hfile⟩
  · rintro before name middle later file file' rfl hfirst hsecond
    have hlt : before.length < (before ++ Call.addFile name :: middle).length := by
      rw [List.length_append, List.length_cons]
      omega
    have hfirst' : (start.answers (before ++ .addFile name :: (middle ++ .addFile name :: later)))[
        before.length]? = some (.added file) := by
      rw [← List.cons_append, ← List.append_assoc]
      exact hfirst
    refine ⟨⟨name_of_added hfirst', name_of_added hsecond⟩, ?_⟩
    rw [hfiles]
    exact (sublist_of_getElem? hlt hfirst hsecond).filterMap Answer.file?

end Compilation

end ProtoSchema
