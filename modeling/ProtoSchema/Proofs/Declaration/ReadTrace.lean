import Mathlib.Algebra.GroupWithZero.Nat
import Mathlib.Data.List.Destutter
import ProtoSchema.Proofs.Declaration.Readings
import ProtoSchema.Proofs.Grammar.Recognition

/-!
# The trace of reads

Every delivery of a token leaves a trace (`trace`). For a text that is accepted the trace lists its
tokens in order, what opens a message or a field twice, and the end of the text once. For one that
is refused it lists a first part of them, and its length is bounded by the number of tokens: the end
of the text may be read without moving on, but not more than three times.

Main statement: `trace_of_parse`.
-/

namespace ProtoSchema

open Declaration Grammar

variable {policy : UnknownContent} {ending : Except SyntaxError Token}

/-! ## Roles in a derivation -/

namespace Grammar

/-- The label of a field opens it. -/
def FieldWords.roles (_ : FieldWords) : List Role :=
  [.opening, .inner, .inner, .inner, .inner, .inner]

/-- The roles of the tokens of a body: labels and the keywords of messages open something. -/
def Items.roles : Items policy → List Role
  | .nil => []
  | .field f rest => f.roles ++ rest.roles
  | .message _ inner rest => .opening :: .inner :: .inner :: (inner.roles ++ .inner :: rest.roles)
  | .other _ rest => .unknown :: rest.roles

def Declared.roles : Declared policy → List Role
  | .package _ => [.inner, .inner, .inner]
  | .message _ items => .opening :: .inner :: .inner :: (items.roles ++ [.inner])

def Derivation.roles (d : Derivation policy) : List Role := d.flatMap Declared.roles

theorem Items.length_roles (items : Items policy) : items.roles.length = items.words.length := by
  induction items with
  | nil => rfl
  | field f rest ih => simp [roles, words, FieldWords.roles, FieldWords.words, ih]
  | message name inner rest ihinner ihrest => simp [roles, words, ihinner, ihrest]
  | other w rest ih => simp [roles, words, ih]

theorem Declared.length_roles (a : Declared policy) : a.roles.length = a.words.length := by
  cases a with
  | package name => rfl
  | message name items => simp [roles, words, Items.length_roles]

/-- Every token of a derivation has a role. -/
theorem Derivation.length_roles (d : Derivation policy) : d.roles.length = d.words.length := by
  simp [roles, words, List.length_flatMap, Declared.length_roles]

open MessageDescriptor in
/-- **What opens something in a body are its fields and messages, at all depths.** -/
theorem Items.count_opening (items : Items policy) (depth : Nat) :
    items.roles.count .opening
      = items.fields.length + (preorderAll depth items.nested).length
        + ((preorderAll depth items.nested).map fun m => m.2.fields.length).sum := by
  induction items generalizing depth with
  | nil => rfl
  | field f rest ih =>
    simp only [roles, FieldWords.roles, fields, nested, List.cons_append, List.nil_append]
    have := ih depth
    simp
    omega
  | message name inner rest ihinner ihrest =>
    have hinner := ihinner (depth + 1)
    have hrest := ihrest depth
    simp [roles, fields, nested, preorderAll, preorder]
    omega
  | other w rest ih =>
    have := ih depth
    simp [roles, fields, nested]
    omega

open MessageDescriptor in
/-- **What opens something in a file are its fields and messages, at all depths.** -/
theorem Derivation.count_opening (d : Derivation policy) (name : String) :
    d.roles.count .opening
      = (d.descriptor name).preorder.length
        + ((d.descriptor name).preorder.map fun m => m.2.fields.length).sum := by
  show _ = (preorderAll 0 (d.filterMap Declared.message?)).length
    + ((preorderAll 0 (d.filterMap Declared.message?)).map _).sum
  induction d with
  | nil => rfl
  | cons a d ih =>
    rw [roles, List.flatMap_cons, List.count_append, ← roles, ih]
    rcases a with package | ⟨message, items⟩
    · simp [Declared.roles, Declared.message?, List.filterMap_cons]
    · have hitems := items.count_opening 1
      simp [Declared.roles, Declared.message?, preorderAll, preorder]
      omega

end Grammar

/-! ## Roles along a run -/

namespace Declaration

open Stage

/-- The roles in which the machine takes tokens. -/
def Stage.roles (policy : UnknownContent) (s : Stage) : List String → List Role
  | [] => []
  | word :: words =>
    s.role word ::
      match s.step policy word with
      | .ok next => next.roles policy words
      | .error _ => []

namespace Stage

variable {s next : Stage} {words : List String}

theorem roles_cons {word : String} (h : s.step policy word = .ok next) :
    s.roles policy (word :: words) = s.role word :: next.roles policy words := by
  rw [roles, h]

theorem roles_append_of_steps {more : List String} (h : s.steps policy words = .ok next) :
    s.roles policy (words ++ more) = s.roles policy words ++ next.roles policy more := by
  induction words generalizing s with
  | nil =>
    cases h
    rfl
  | cons word words ih =>
    obtain ⟨s', hstep, hsteps⟩ := steps_cons_eq_ok_iff.mp h
    rw [List.cons_append, roles_cons hstep, roles_cons hstep, ih hsteps, List.cons_append]

/-- Tokens that lead to a stage, whatever comes behind them. -/
theorem roles_append {more : List String}
    (h : ∀ rest, s.steps policy (words ++ rest) = next.steps policy rest) :
    s.roles policy (words ++ more) = s.roles policy words ++ next.roles policy more := by
  refine roles_append_of_steps ?_
  rw [← List.append_nil words, h, steps_nil]

/-- **Tokens that are taken are read in their roles.** -/
theorem readings_of_steps {tokens : List Token}
    (h : s.steps policy (tokens.map Token.value) = .ok next) :
    readings policy s tokens ending
      = (s.roles policy (tokens.map Token.value)).zip tokens ++ readings policy next [] ending := by
  induction tokens generalizing s with
  | nil =>
    cases h
    rfl
  | cons t tokens ih =>
    rw [List.map_cons] at h ⊢
    obtain ⟨s', hstep, hsteps⟩ := steps_cons_eq_ok_iff.mp h
    rw [readings_cons_ok hstep, roles_cons hstep, ih hsteps]
    rfl

/-- The roles of the tokens of a field. -/
theorem roles_field (file : FileDraft) (n : Nesting) (f : FieldWords) :
    roles policy ⟨file, .item n⟩ f.words = f.roles := by
  have hlabel : Label.ofKeyword? f.label.keyword = some f.label := Label.ofKeyword?_keyword f.label
  have hopening : Role.ofItem f.label.keyword = .opening := if_pos (Or.inl (by rw [hlabel]; rfl))
  obtain ⟨number, hnumber⟩ : ∃ number, FieldNumber.ofText f.numeral = .ok number := by
    refine ⟨_, FieldNumber.ofText_eq_ok_iff.mpr ⟨f.isNumeral, (Int32.toInt_ofInt_of_le ?_ ?_).symm⟩⟩
    · exact f.inRange.1
    · exact Int.lt_of_le_of_lt f.inRange.2 (by decide)
  simp only [FieldWords.words, FieldWords.roles, roles, role, step, take, hlabel, hopening, hnumber,
    if_true]

/-- **The roles of the tokens of a body.** -/
theorem roles_items (file : FileDraft) (n : Nesting) (items : Items policy) :
    roles policy ⟨file, .item n⟩ items.words = items.roles := by
  induction items generalizing n with
  | nil => rfl
  | field f rest ih =>
    rw [Items.words, roles_append (steps_field file n f), roles_field, ih]
    rfl
  | message name inner rest ihinner ihrest =>
    have hinner := steps_items file ⟨.named name, n.innermost :: n.enclosing⟩ inner
    have hclose : step policy ⟨file, .item ⟨.addItems (.named name) inner,
        n.innermost :: n.enclosing⟩⟩ "\x7d" = .ok ⟨file, .item ⟨n.innermost.addNested
          (MessageDraft.addItems (.named name) inner).finish, n.enclosing⟩⟩ := rfl
    calc roles policy ⟨file, .item n⟩ (Items.message name inner rest).words
        = .opening :: .inner :: .inner ::
            roles policy ⟨file, .item ⟨.named name, n.innermost :: n.enclosing⟩⟩
              (inner.words ++ "\x7d" :: rest.words) := rfl
      _ = _ := by
        rw [roles_append hinner, ihinner, roles_cons hclose, ihrest]
        rfl
  | other w rest ih =>
    have hrole : Role.ofItem w.word = .unknown := by
      refine Role.ofItem_eq_unknown_iff.mpr ⟨?_, w.ne_message, w.ne_close⟩
      intro hlabel
      obtain ⟨l, hl⟩ := Option.isSome_iff_exists.mp hlabel
      exact w.ne_label l (Label.ofKeyword?_eq_some_iff.mp hl)
    rw [Items.words, roles_cons (step_other file n w), ih, Items.roles, ← hrole]
    rfl

/-- The roles of the tokens of a declaration. -/
theorem roles_declared (file : FileDraft) (a : Declared policy) :
    roles policy ⟨file, .declaration⟩ a.words = a.roles := by
  cases a with
  | package name => rfl
  | message name items =>
    calc roles policy ⟨file, .declaration⟩ (Declared.message name items).words
        = .opening :: .inner :: .inner ::
            roles policy ⟨file, .item (.outermost name)⟩ (items.words ++ ["\x7d"]) := rfl
      _ = _ := by
        rw [roles_append (steps_items file (.outermost name) items), roles_items]
        rfl

/-- **The roles of the tokens of a derivation.** -/
theorem roles_words (file : FileDraft) (d : Derivation policy) :
    roles policy ⟨file, .declaration⟩ d.words = d.roles := by
  induction d generalizing file with
  | nil => rfl
  | cons a d ih =>
    rw [Derivation.words, List.flatMap_cons, roles_append (steps_declared file a), roles_declared,
      ← Derivation.words, ih]
    rfl

end Stage

/-! ## What is delivered -/

/-- Each token is delivered once, and once more if it opens something. -/
theorem length_delivered_zip {roles : List Role} {tokens : List Token}
    (h : roles.length = tokens.length) :
    (delivered (roles.zip tokens)).length = tokens.length + roles.count .opening := by
  induction roles generalizing tokens with
  | nil =>
    obtain rfl : tokens = [] := List.length_eq_zero_iff.mp h.symm
    rfl
  | cons role roles ih =>
    obtain ⟨t, tokens, rfl⟩ := List.exists_of_length_succ _ h.symm
    have hlength := ih (Nat.succ.inj h)
    rw [List.zip_cons_cons, ← List.singleton_append, delivered_append, List.length_append, hlength]
    cases role <;> simp [delivered] <;> omega

theorem delivered_replicate (n : Nat) (last : Token) :
    delivered (List.replicate n (.inner, last)) = List.replicate n last := by
  induction n with
  | zero => rfl
  | succ n ih =>
    rw [List.replicate_succ, List.replicate_succ, ← ih]
    rfl

theorem length_delivered_singleton_le (role : Role) (t : Token) :
    (delivered [(role, t)]).length ≤ 2 := by
  cases role <;> simp [delivered]

theorem Stage.endReads_le (s : Stage) : s.endReads ≤ 3 := by
  unfold endReads
  split <;> decide

/-- **Each token is read at most twice, and the end of the text at most three times.** -/
theorem length_delivered_readings_le (s : Stage) (tokens : List Token)
    (ending : Except SyntaxError Token) :
    (delivered (readings policy s tokens ending)).length ≤ 2 * tokens.length + 3 := by
  induction tokens generalizing s with
  | nil =>
    cases ending with
    | error e => exact Nat.zero_le _
    | ok last =>
      rw [readings, delivered_replicate, List.length_replicate]
      exact s.endReads_le
  | cons t tokens ih =>
    have hfirst := length_delivered_singleton_le (s.role t.value) t
    rw [List.length_cons]
    cases hstep : s.step policy t.value with
    | ok next =>
      have hrest := ih next
      rw [readings_cons_ok hstep, delivered_append, List.length_append]
      omega
    | error cause =>
      rw [readings_cons_error hstep]
      omega

/-! ## Repeats removed -/

/-- Two tokens stand at different places. -/
def Distinct (t u : Token) : Prop := t.offset ≠ u.offset

instance : DecidableRel Distinct := fun _ _ => inferInstanceAs (Decidable (_ ≠ _))

theorem not_distinct_self (t : Token) : ¬Distinct t t := fun h => h rfl

theorem destutter'_replicate (n : Nat) (t : Token) :
    (List.replicate n t).destutter' Distinct t = [t] := by
  induction n with
  | zero => rfl
  | succ n ih => rw [List.replicate_succ, List.destutter'_cons_neg _ (not_distinct_self t), ih]

/-- The token that was delivered first is kept once. -/
theorem destutter_delivered_cons (role : Role) (t : Token) (more : List (Role × Token)) :
    (delivered ([(role, t)] ++ more)).destutter Distinct
      = (delivered more).destutter' Distinct t := by
  rw [delivered_append]
  cases role with
  | opening => exact List.destutter'_cons_neg _ (not_distinct_self t)
  | unknown => rfl
  | inner => rfl

/-- A token is kept once, however often it was delivered. -/
theorem destutter'_delivered_cons {before t : Token} (h : Distinct before t) (role : Role)
    (more : List (Role × Token)) :
    (delivered ([(role, t)] ++ more)).destutter' Distinct before
      = before :: (delivered more).destutter' Distinct t := by
  rw [← destutter_delivered_cons role t more, delivered_append]
  cases role with
  | opening => exact List.destutter'_cons_pos _ h
  | unknown => exact List.destutter'_cons_pos _ h
  | inner => exact List.destutter'_cons_pos _ h

theorem exists_prefix_destutter' (policy : UnknownContent) (s : Stage) {before : Token}
    {tokens : List Token} (h : (before :: (tokens ++ ending.toOption.toList)).Pairwise Distinct) :
    ∃ part, part <+: tokens ++ ending.toOption.toList ∧
      (delivered (readings policy s tokens ending)).destutter' Distinct before
        = before :: part := by
  induction tokens generalizing s before with
  | nil =>
    cases ending with
    | error e => exact ⟨[], List.nil_prefix, rfl⟩
    | ok last =>
      rw [readings, delivered_replicate]
      cases s.endReads with
      | zero => exact ⟨[], List.nil_prefix, rfl⟩
      | succ n =>
        have hne : Distinct before last := (List.pairwise_cons.mp h).1 last List.mem_cons_self
        refine ⟨[last], List.prefix_rfl, ?_⟩
        rw [List.replicate_succ, List.destutter'_cons_pos _ hne, destutter'_replicate]
  | cons t tokens ih =>
    rw [List.cons_append, List.pairwise_cons] at h
    have hne : Distinct before t := h.1 t List.mem_cons_self
    cases hstep : s.step policy t.value with
    | ok next =>
      obtain ⟨part, hprefix, hpart⟩ := ih next h.2
      refine ⟨t :: part, (List.prefix_cons_inj t).mpr hprefix, ?_⟩
      rw [readings_cons_ok hstep, destutter'_delivered_cons hne, hpart]
    | error cause =>
      refine ⟨[t], (List.prefix_cons_inj t).mpr List.nil_prefix, ?_⟩
      rw [readings_cons_error hstep, ← List.append_nil [_], destutter'_delivered_cons hne]
      rfl

/-- **Without repeats, a first part of the text is read.** -/
theorem prefix_destutter_delivered (s : Stage) {tokens : List Token}
    (h : (tokens ++ ending.toOption.toList).Pairwise Distinct) :
    (delivered (readings policy s tokens ending)).destutter Distinct
      <+: tokens ++ ending.toOption.toList := by
  cases tokens with
  | nil =>
    cases ending with
    | error e => exact List.nil_prefix
    | ok last =>
      rw [readings, delivered_replicate]
      cases s.endReads with
      | zero => exact List.nil_prefix
      | succ n =>
        rw [List.replicate_succ, List.destutter_cons', destutter'_replicate]
        exact List.prefix_rfl
  | cons t tokens =>
    cases hstep : s.step policy t.value with
    | ok next =>
      obtain ⟨part, hprefix, hpart⟩ := exists_prefix_destutter' policy next h
      rw [readings_cons_ok hstep, destutter_delivered_cons, hpart]
      exact (List.prefix_cons_inj t).mpr hprefix
    | error cause =>
      rw [readings_cons_error hstep, ← List.append_nil [_], destutter_delivered_cons]
      exact (List.prefix_cons_inj t).mpr List.nil_prefix

end Declaration

open Declaration Scanner

/-! ## Texts -/

/-- Every token that is delivered while a text is parsed, in order. -/
def trace (policy : UnknownContent) (name source : String) : List Token :=
  (finalCursor (file policy name (.ofSource source))).reads.toList

/-- Looking for text that is left behind the last token delivers nothing. -/
theorem reads_file (policy : UnknownContent) (name : String) (c : Cursor) :
    (finalCursor (file policy name c)).reads
      = (finalCursor (declarations policy (.named name) c).2).reads := by
  unfold file
  split
  · next draft c' hread =>
    rw [hread]
    by_cases hrest : c'.scanner.rest.isEmpty = true
    · have hfinish : finish c' = .ok () c' := if_pos hrest
      rw [Reading.bind_of_ok hfinish]
      rfl
    · have hfinish : finish c' = Cursor.fail .unconsumedInput c' := if_neg hrest
      rw [Reading.bind_of_error hfinish]
      rfl
  · next draft e c' hread =>
    rw [hread]
    rfl

/-- **The trace of a parse is what the machine reads.** -/
theorem trace_eq (policy : UnknownContent) (name source : String) :
    trace policy name source
      = delivered (readings policy ⟨.named name, .declaration⟩ (ofSource source).readAll.tokens
          (ofSource source).readAll.ending) := by
  have h := (accounts_declarations policy (.named name) (Cursor.ahead_ofSource source)).1
  rw [trace, reads_file, h]
  rfl

/-- **The tokens of a text and its end stand at different places.** -/
theorem pairwise_distinct (source : String) :
    ((ofSource source).readAll.tokens
      ++ (ofSource source).readAll.ending.toOption.toList).Pairwise Distinct := by
  rw [List.pairwise_append]
  refine ⟨(pairwise_offset_readAll source).imp Nat.ne_of_lt, ?_, ?_⟩
  · cases (ofSource source).readAll.ending with
    | error e => exact .nil
    | ok last => exact List.pairwise_singleton ..
  · intro t ht u hu
    have hlt : t.offset < endingOffset (ofSource source).readAll.ending :=
      Nat.lt_of_lt_of_le (standsIn_of_mem_readAll ht).offset_lt_stop (stop_le_endingOffset ht)
    cases hending : (ofSource source).readAll.ending with
    | error e =>
      rw [hending] at hu
      cases hu
    | ok last =>
      rw [hending] at hu hlt
      obtain rfl : u = last := List.mem_singleton.mp hu
      exact Nat.ne_of_lt hlt

/-- **Without repeats, the trace is a first part of the tokens and the end of the text.** -/
theorem prefix_destutter_trace (policy : UnknownContent) (name source : String) :
    (trace policy name source).destutter Distinct
      <+: (ofSource source).readAll.tokens ++ [.endOf source] := by
  have hend : (ofSource source).readAll.ending.toOption.toList <+: [.endOf source] := by
    cases hfailure : (ofSource source).readAll.failure with
    | none =>
      rw [ending_eq_endOf hfailure]
      exact List.prefix_rfl
    | some e =>
      rw [Scan.ending, hfailure]
      exact List.nil_prefix
  refine .trans ?_ ((List.prefix_append_right_inj _).mpr hend)
  rw [trace_eq]
  exact prefix_destutter_delivered _ (pairwise_distinct source)

/-- **What is read is the tokens in order, with what opens a message or a field twice.** A text that
is accepted has a derivation; its tokens are delivered in order, once each, and once more where the
derivation opens a message or a field, and the end of the text is delivered once. So there are as
many reads as tokens, messages and fields, at all depths, and one more. For a text that is refused,
the reads without immediate repeats are a first part of the tokens followed by the end, and there
are at most two for each token and three more. -/
theorem trace_of_parse (policy : UnknownContent) (name source : String) :
    (∀ F, parse policy name source = .ok F → ∃ d : Derivation policy,
      d.words = (ofSource source).readAll.tokens.map Token.value ∧ F = d.descriptor name ∧
      trace policy name source
        = delivered (d.roles.zip (ofSource source).readAll.tokens) ++ [.endOf source] ∧
      (trace policy name source).length
        = (ofSource source).readAll.tokens.length + F.preorder.length
          + (F.preorder.map fun m => m.2.fields.length).sum + 1) ∧
      ∀ e, parse policy name source = .error e →
        (trace policy name source).destutter Distinct
          <+: (ofSource source).readAll.tokens ++ [.endOf source] ∧
        (trace policy name source).length ≤ 2 * (ofSource source).readAll.tokens.length + 3 := by
  constructor
  · intro F h
    obtain ⟨hfailure, d, hwords, rfl⟩ := exists_derivation_of_parse h
    have htrace : trace policy name source
        = delivered (d.roles.zip (ofSource source).readAll.tokens) ++ [.endOf source] := by
      have hsteps := Stage.steps_words (.named name) d
      rw [hwords] at hsteps
      rw [trace_eq, Stage.readings_of_steps hsteps, delivered_append, ← hwords,
        Stage.roles_words, ending_eq_endOf hfailure]
      rfl
    refine ⟨d, hwords, rfl, htrace, ?_⟩
    have hlength : d.roles.length = (ofSource source).readAll.tokens.length := by
      rw [d.length_roles, hwords, List.length_map]
    rw [htrace, List.length_append, length_delivered_zip hlength, d.count_opening name]
    simp only [List.length_singleton]
    omega
  · intro e _
    refine ⟨prefix_destutter_trace policy name source, ?_⟩
    rw [trace_eq]
    exact length_delivered_readings_le ..

end ProtoSchema
