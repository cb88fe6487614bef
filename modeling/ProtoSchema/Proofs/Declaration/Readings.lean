import ProtoSchema.Proofs.Declaration.UnknownContent

/-!
# What the readers of declarations read

The readers read some tokens twice: the keyword of a message and the label of a field are pushed
back and read again. Where a text ends too early, its end may be read several times. Other tokens
are read once. The machine of `ProtoSchema.Proofs.Declaration.Stage` knows which is which:
`readings` lists the tokens that it takes, each with the role in which it is taken (`Role`), and the
end of the text as often as it is read.

That list accounts for what the readers do in two ways (`Accounts`): it says which tokens are
delivered to them, and which tokens of a body are unknown content (`unknownContent`).

Main statement: `accounts_declarations`.
-/

namespace ProtoSchema.Declaration

open Cursor

variable {α β : Type} {policy : UnknownContent} {s next : Stage} {tokens : List Token}
  {ending : Except SyntaxError Token} {c : Cursor}

/-! ## Roles of tokens -/

/-- What a token is read as. -/
inductive Role where
  /-- The keyword of a message, or the label of a field. -/
  | opening
  /-- A token of a body that begins nothing and closes nothing. -/
  | unknown
  /-- Any other token. -/
  | inner
deriving DecidableEq

/-- The role of a token where an item of a body begins. -/
def Role.ofItem (word : String) : Role :=
  if (Label.ofKeyword? word).isSome ∨ word = "message" then .opening
  else if word = "\x7d" then .inner
  else .unknown

/-- The role of the next token. -/
def Stage.role (s : Stage) (word : String) : Role :=
  match s.expecting with
  | .declaration => if word = "message" then .opening else .inner
  | .item _ => .ofItem word
  | _ => .inner

theorem Role.ofItem_eq_unknown_iff {word : String} :
    ofItem word = .unknown ↔
      ¬(Label.ofKeyword? word).isSome ∧ word ≠ "message" ∧ word ≠ "\x7d" := by
  unfold ofItem
  split
  · next h =>
    simp only [reduceCtorEq, false_iff]
    tauto
  · next h =>
    split
    · next hclose =>
      simp only [reduceCtorEq, false_iff]
      tauto
    · next hclose =>
      simp only [true_iff]
      tauto

/-- Unknown content leaves the machine that skips where it was. -/
theorem Stage.step_of_unknown {word : String} (h : s.role word = .unknown) :
    s.step .skip word = .ok s := by
  obtain ⟨file, expecting⟩ := s
  cases expecting with
  | item n =>
    obtain ⟨hlabel, hmessage, hclose⟩ := Role.ofItem_eq_unknown_iff.mp h
    have hnone : Label.ofKeyword? word = none := Option.not_isSome_iff_eq_none.mp hlabel
    simp only [step, hnone, if_neg hmessage, if_neg hclose]
  | declaration =>
    simp only [role] at h
    split at h <;> cases h
  | _ => cases h

/-- Any other token is taken or refused alike under both policies. -/
theorem Stage.step_of_known {word : String} (h : s.role word ≠ .unknown) :
    s.step .reject word = s.step .skip word := by
  obtain ⟨file, expecting⟩ := s
  cases expecting with
  | item n =>
    unfold step
    cases hlabel : Label.ofKeyword? word with
    | some l => rfl
    | none =>
      by_cases hmessage : word = "message"
      · simp only [if_pos hmessage]
      · by_cases hclose : word = "\x7d"
        · simp only [if_neg hmessage, if_pos hclose]
        · exact absurd (Role.ofItem_eq_unknown_iff.mpr ⟨by simp [hlabel], hmessage, hclose⟩) h
  | _ => rfl

/-- How often the end of the text is read if it comes next. -/
def Stage.endReads (s : Stage) : Nat :=
  match s.expecting with
  | .packageName | .messageName _ | .fieldName _ _ _ => 2
  | .fieldType _ _ => 3
  | _ => 1

/-- The tokens that the machine takes, up to one that it refuses, and the end of the text. -/
def readings (policy : UnknownContent) (s : Stage) :
    List Token → Except SyntaxError Token → List (Role × Token)
  | [], .error _ => []
  | [], .ok last => List.replicate s.endReads (.inner, last)
  | t :: tokens, ending =>
    (s.role t.value, t) ::
      match s.step policy t.value with
      | .ok next => readings policy next tokens ending
      | .error _ => []

/-- The tokens as they are delivered: what opens a message or a field, twice. -/
def delivered (readings : List (Role × Token)) : List Token :=
  readings.flatMap fun r => if r.1 = .opening then [r.2, r.2] else [r.2]

/-- The tokens of unknown content. -/
def unknowns (readings : List (Role × Token)) : List Token :=
  readings.filterMap fun r => if r.1 = .unknown then some r.2 else none

theorem delivered_append (part more : List (Role × Token)) :
    delivered (part ++ more) = delivered part ++ delivered more := List.flatMap_append

theorem unknowns_append (part more : List (Role × Token)) :
    unknowns (part ++ more) = unknowns part ++ unknowns more := List.filterMap_append

theorem unknowns_singleton (role : Role) (t : Token) :
    unknowns [(role, t)] = if role = .unknown then [t] else [] := by
  cases role <;> rfl

theorem readings_cons_ok {t : Token} (h : s.step policy t.value = .ok next) :
    readings policy s (t :: tokens) ending
      = [(s.role t.value, t)] ++ readings policy next tokens ending := by
  rw [readings, h]
  rfl

theorem readings_cons_error {t : Token} {cause : SyntaxError.Cause}
    (h : s.step policy t.value = .error cause) :
    readings policy s (t :: tokens) ending = [(s.role t.value, t)] := by
  rw [readings, h]

/-! ## Unknown content -/

/-- The token of unknown content that comes next in a body, if there is one. -/
def unknownItem? (c : Cursor) : Option Token :=
  match advance c with
  | .ok t _ => if t.value ≠ "" ∧ Role.ofItem t.value = .unknown then some t else none
  | .error _ _ => none

/-- The tokens of unknown content in a body. -/
def unknownInBody (policy : UnknownContent) (n : Nesting) (c : Cursor) : List Token :=
  match _ : item policy n c with
  | .ok (.more n') c' => (unknownItem? c).toList ++ unknownInBody policy n' c'
  | .ok (.closed _) _ | .error _ _ => (unknownItem? c).toList
termination_by c.weight
decreasing_by exact weight_lt_of_item ‹_›

/-- The tokens of unknown content in a message. -/
def unknownInMessage (policy : UnknownContent) (c : Cursor) : List Token :=
  match header c with
  | .ok name c' => unknownInBody policy (.outermost name) c'
  | .error _ _ => []

/-- The tokens of unknown content in the next declaration. -/
def unknownInDeclaration (policy : UnknownContent) (c : Cursor) : List Token :=
  match advance c with
  | .ok t c' =>
    if t.value = "message" then
      match pushback c' with
      | .ok () c'' => unknownInMessage policy c''
      | .error _ _ => []
    else []
  | .error _ _ => []

/-- The tokens of unknown content in all declarations ahead, up to the first error. -/
def unknownContent (policy : UnknownContent) (c : Cursor) : List Token :=
  match _ : declaration policy c with
  | .ok (.package _) c' =>
    match _ : expect ";" c' with
    | .ok () c'' => unknownContent policy c''
    | .error _ _ => []
  | .ok (.message _) c' => unknownInDeclaration policy c ++ unknownContent policy c'
  | .ok .finished _ => []
  | .error _ _ => unknownInDeclaration policy c
termination_by c.weight
decreasing_by
  · exact Nat.lt_trans (weight_lt_of_expect ‹_› (by decide))
      (weight_lt_of_declaration ‹declaration _ _ = _› (by simp))
  · exact weight_lt_of_declaration ‹_› (by simp)

theorem unknownItem?_of_advance {t : Token} {c' : Cursor} (h : advance c = .ok t c') :
    unknownItem? c = if t.value ≠ "" ∧ Role.ofItem t.value = .unknown then some t else none := by
  rw [unknownItem?, h]

theorem item_of_unknown {n : Nesting} {t : Token} {c' : Cursor} (hadv : advance c = .ok t c')
    (h : t.value ≠ "" ∧ Role.ofItem t.value = .unknown) : item .skip n c = .ok (.more n) c' := by
  obtain ⟨hlabel, hmessage, hclose⟩ := Role.ofItem_eq_unknown_iff.mp h.2
  rw [show item .skip n c = _ from Reading.bind_of_ok hadv, if_neg hlabel, if_neg hmessage,
    if_neg hclose, if_neg h.1]
  rfl

theorem item_of_known {n : Nesting} {t : Token} {c' : Cursor} (hadv : advance c = .ok t c')
    (h : ¬(t.value ≠ "" ∧ Role.ofItem t.value = .unknown)) :
    item .reject n c = item .skip n c := by
  have hread : ∀ policy, item policy n c = _ := fun policy => Reading.bind_of_ok hadv
  rw [hread, hread]
  split
  · rfl
  · split
    · rfl
    · split
      · rfl
      · split
        · rfl
        · exact absurd ⟨‹_›, Role.ofItem_eq_unknown_iff.mpr ⟨‹_›, ‹_›, ‹_›⟩⟩ h

/-- **A token is unknown content exactly if it is skipped by itself**: the item that it begins ends
with it and leaves the open messages as they are. -/
theorem unknownItem?_eq_some_iff {n : Nesting} {t : Token} :
    unknownItem? c = some t ↔ Skips n c t := by
  cases hadv : advance c with
  | error e c' => simp [unknownItem?, Skips, hadv]
  | ok u c' =>
    rw [unknownItem?_of_advance hadv]
    by_cases hrole : u.value ≠ "" ∧ Role.ofItem u.value = .unknown
    · rw [if_pos hrole, Option.some.injEq]
      constructor
      · rintro rfl
        exact ⟨c', hadv, item_of_unknown hadv hrole⟩
      · rintro ⟨c'', hadv', -⟩
        rw [hadv] at hadv'
        cases hadv'
        rfl
    · rw [if_neg hrole]
      refine iff_of_false (by simp) ?_
      rintro ⟨c'', hadv', hskips⟩
      -- what is no unknown content is read alike under both policies
      rcases item_cases n hadv with ⟨r, hread, hne⟩ | ⟨-, c₁, hrefused⟩
      · exact hne c'' ((hread .skip).symm.trans hskips)
      · rw [item_of_known hadv hrole, hskips] at hrefused
        cases hrefused

/-! ## Accounting for a reader -/

/-- Where a reader has stopped. -/
def finalCursor : EStateM.Result SyntaxError Cursor α → Cursor
  | .ok _ c => c
  | .error _ c => c

/-- The outcome `r` of a reader is accounted for by a part of what the machine reads: the tokens of
this part were delivered behind those `before`, and those of unknown content are `unknown`. Where
the reader succeeds, what is left is what the machine reads from the stage `k` that is reached; where
it fails, nothing is left. -/
def Accounts (policy : UnknownContent) (s : Stage) (tokens : List Token)
    (ending : Except SyntaxError Token) (k : α → Stage) (before unknown : List Token)
    (r : EStateM.Result SyntaxError Cursor α) : Prop :=
  ∃ part, (finalCursor r).reads.toList = before ++ delivered part ∧ unknowns part = unknown ∧
    match r with
    | .ok a c => ∃ tokens', c.Ahead tokens' ending ∧
        readings policy s tokens ending = part ++ readings policy (k a) tokens' ending
    | .error _ _ => readings policy s tokens ending = part

/-- A reader without unknown content that is accounted for from a stage, whatever lies ahead. -/
def Accounted (policy : UnknownContent) (s : Stage) (x : Reading α) (k : α → Stage) : Prop :=
  ∀ c tokens ending, c.Ahead tokens ending →
    Accounts policy s tokens ending k c.reads.toList [] (x c)

theorem Accounts.ok {k : α → Stage} {a : α} (h : c.Ahead tokens ending) (hs : s = k a) :
    Accounts policy s tokens ending k c.reads.toList [] (.ok a c) :=
  ⟨[], (List.append_nil _).symm, rfl, tokens, h, by rw [hs, List.nil_append]⟩

/-- The machine reads a first part by itself, and accounts for the reader behind it. -/
theorem Accounts.trans {k : α → Stage} {r : EStateM.Result SyntaxError Cursor α}
    {part : List (Role × Token)} {tokens' before unknown : List Token}
    (hpart : readings policy s tokens ending = part ++ readings policy next tokens' ending)
    (h : Accounts policy next tokens' ending k (before ++ delivered part) unknown r) :
    Accounts policy s tokens ending k before (unknowns part ++ unknown) r := by
  obtain ⟨part', hreads, rfl, h⟩ := h
  refine ⟨part ++ part', ?_, unknowns_append .., ?_⟩
  · rw [hreads, delivered_append, List.append_assoc]
  · cases r with
    | ok a c =>
      obtain ⟨tokens'', hahead, h⟩ := h
      exact ⟨tokens'', hahead, by rw [hpart, h, List.append_assoc]⟩
    | error e c =>
      show _ = part ++ part'
      rw [hpart]
      exact congrArg _ h

/-- A token that is taken in the role it has. -/
theorem Accounts.step (next : Stage) {k : α → Stage} {r : EStateM.Result SyntaxError Cursor α}
    {t : Token} {role : Role} {before reads unknown : List Token} (hrole : s.role t.value = role)
    (hstep : s.step policy t.value = .ok next) (hreads : reads = before ++ delivered [(role, t)])
    (h : Accounts policy next tokens ending k reads unknown r) :
    Accounts policy s (t :: tokens) ending k before (unknowns [(role, t)] ++ unknown) r :=
  .trans (hrole ▸ readings_cons_ok hstep) (hreads ▸ h)

/-- The end of the text is read as a token where a token is missing. -/
theorem Accounts.stepEnd {k : α → Stage} {r : EStateM.Result SyntaxError Cursor α} {last : Token}
    {before reads unknown : List Token} (hend : s.endReads = next.endReads + 1)
    (hreads : reads = before ++ [last])
    (h : Accounts policy next [] (.ok last) k reads unknown r) :
    Accounts policy s [] (.ok last) k before unknown r := by
  have hpart : readings policy s [] (.ok last)
      = [(.inner, last)] ++ readings policy next [] (.ok last) := by
    rw [readings, readings, hend]
    rfl
  exact .trans hpart (hreads ▸ h)

/-- The reader refuses the token that the machine refuses. -/
theorem Accounts.fail {k : α → Stage} {t : Token} {role : Role} {cause cause' : SyntaxError.Cause}
    {before : List Token} (hrole : s.role t.value = role)
    (hstep : s.step policy t.value = .error cause)
    (hreads : c.reads.toList = before ++ delivered [(role, t)]) :
    Accounts policy s (t :: tokens) ending k before (unknowns [(role, t)])
      (Cursor.fail cause' c) :=
  ⟨[(role, t)], hreads, rfl, hrole ▸ readings_cons_error hstep⟩

/-- The reader refuses the end of the text. -/
theorem Accounts.failEnd {k : α → Stage} {last : Token} {cause : SyntaxError.Cause}
    {before : List Token} (hend : s.endReads = 1) (hreads : c.reads.toList = before ++ [last]) :
    Accounts policy s [] (.ok last) k before [] (Cursor.fail cause c) := by
  refine ⟨[(.inner, last)], hreads, rfl, ?_⟩
  show readings policy s [] (.ok last) = _
  rw [readings, hend]
  rfl

theorem reads_of_advance {t : Token} {c' : Cursor} (h : advance c = .ok t c') :
    c'.reads.toList = c.reads.toList ++ [t] := by
  unfold advance deliver at h
  repeat' split at h
  all_goals
    cases h
    try exact Array.toList_push

theorem reads_of_advance_error {e : SyntaxError} {c' : Cursor} (h : advance c = .error e c') :
    c'.reads = c.reads := by
  unfold advance deliver at h
  repeat' split at h
  all_goals
    cases h
    try rfl

theorem reads_of_pushback {c' : Cursor} (h : pushback c = .ok () c') : c'.reads = c.reads := by
  unfold pushback at h
  split at h
  · cases h
  · cases h
    rfl

/-- A token that was just read may be pushed back, and is then delivered for the second time. -/
theorem exists_pushback {t : Token} {c' : Cursor} (hadv : advance c = .ok t c')
    (h : c'.Ahead tokens ending) (hne : t.value ≠ "") :
    ∃ c'', pushback c' = .ok () c'' ∧ c''.Ahead (t :: tokens) ending ∧
      c''.reads.toList ++ [t] = c.reads.toList ++ [t, t] := by
  have hcurrent := current_of_advance hadv
  obtain ⟨c'', hpush, hagain⟩ :=
    pushback_of_ahead h (weight_le_of_advance hadv).2 (hcurrent ▸ hne)
  rw [hcurrent] at hagain
  refine ⟨c'', hpush, hagain, ?_⟩
  rw [reads_of_pushback hpush, reads_of_advance hadv, List.append_assoc]
  rfl

/-- **Reading a token: it is the next one ahead, or the end of the text.** A stray character is not
delivered. -/
theorem accounts_read {k : α → Stage} {f : Token → Reading α} {unknown : List Token}
    (h : c.Ahead tokens ending)
    (hcons : ∀ t tokens' c', tokens = t :: tokens' → advance c = .ok t c' →
      c'.Ahead tokens' ending →
      Accounts policy s tokens ending k c.reads.toList unknown (f t c'))
    (hnil : ∀ t c', tokens = [] → ending = .ok t → t.value = "" → advance c = .ok t c' →
      c'.Ahead [] (.ok t) →
      Accounts policy s tokens ending k c.reads.toList unknown (f t c'))
    (herror : ∀ e c', advance c = .error e c' → unknown = []) :
    Accounts policy s tokens ending k c.reads.toList unknown ((advance >>= f) c) := by
  cases tokens with
  | cons t tokens =>
    obtain ⟨c', hadv, hahead, -, -⟩ := advance_of_cons h
    rw [Reading.bind_of_ok hadv]
    exact hcons t tokens c' rfl hadv hahead
  | nil =>
    cases ending with
    | ok t =>
      obtain ⟨c', hadv, hahead, -, -⟩ := advance_of_end h
      rw [Reading.bind_of_ok hadv]
      exact hnil t c' rfl rfl (Scanner.Scan.value_of_ending h.ending) hadv hahead
    | error e =>
      obtain ⟨c', hadv⟩ := advance_of_error h
      rw [Reading.bind_of_error hadv, herror e c' hadv]
      refine ⟨[], ?_, rfl, rfl⟩
      rw [finalCursor, reads_of_advance_error hadv]
      exact (List.append_nil _).symm

/-- A reader that goes on behind another one. -/
theorem Accounts.andThen {k : α → Stage} {k' : β → Stage} {a : α} {c' : Cursor}
    {before unknown unknown' : List Token} {r : EStateM.Result SyntaxError Cursor β}
    (h : Accounts policy s tokens ending k before unknown (.ok a c'))
    (hrest : ∀ tokens', c'.Ahead tokens' ending →
      Accounts policy (k a) tokens' ending k' c'.reads.toList unknown' r) :
    Accounts policy s tokens ending k' before (unknown ++ unknown') r := by
  obtain ⟨part, hreads, rfl, tokens', hahead, hpart⟩ := h
  refine .trans hpart ?_
  rw [← hreads]
  exact hrest tokens' hahead

/-- Two readers one after the other are accounted for if each is. -/
theorem Accounts.bind {x : Reading α} {f : α → Reading β} {k : α → Stage} {k' : β → Stage}
    {before : List Token} (hx : Accounts policy s tokens ending k before [] (x c))
    (hf : ∀ a, Accounted policy (k a) (f a) k') :
    Accounts policy s tokens ending k' before [] ((x >>= f) c) := by
  cases hxc : x c with
  | error e c' =>
    rw [hxc] at hx
    rw [Reading.bind_of_error hxc]
    exact hx
  | ok a c' =>
    rw [hxc] at hx
    rw [Reading.bind_of_ok hxc]
    exact hx.andThen fun tokens' hahead => hf a c' tokens' ending hahead

/-- Renaming what a reader returns, with the stage it stands for kept. -/
theorem Accounts.map {x : Reading α} {g : α → β} {k : α → Stage} {k' : β → Stage}
    {before unknown : List Token} (hx : Accounts policy s tokens ending k before unknown (x c))
    (hk : ∀ a, k a = k' (g a)) :
    Accounts policy s tokens ending k' before unknown ((x >>= fun a => pure (g a)) c) := by
  cases hxc : x c with
  | error e c' =>
    rw [hxc] at hx
    rw [Reading.bind_of_error hxc]
    exact hx
  | ok a c' =>
    rw [hxc] at hx
    rw [Reading.bind_of_ok hxc]
    obtain ⟨part, hreads, hunknown, tokens', hahead, hpart⟩ := hx
    exact ⟨part, hreads, hunknown, tokens', hahead, hk a ▸ hpart⟩

theorem Accounted.bind {x : Reading α} {f : α → Reading β} {k : α → Stage} {k' : β → Stage}
    (hx : Accounted policy s x k) (hf : ∀ a, Accounted policy (k a) (f a) k') :
    Accounted policy s (x >>= f) k' := by
  intro c tokens ending h
  exact (hx c tokens ending h).bind hf

theorem Accounted.pure {k : α → Stage} {a : α} (hs : s = k a) :
    Accounted policy s (Pure.pure a) k := by
  intro c tokens ending h
  exact .ok h hs

/-! ## Single tokens -/

/-- Reading any token as a name. -/
theorem accounted_advance {k : String → Stage} (hrole : ∀ word, s.role word = .inner)
    (hstep : ∀ word, s.step policy word = .ok (k word))
    (hend : s.endReads = (k "").endReads + 1) :
    Accounted policy s advance fun t => k t.value := by
  intro c tokens ending h
  rw [← bind_pure advance]
  refine accounts_read h ?_ ?_ fun _ _ _ => rfl
  · rintro t tokens' c' rfl hadv hahead
    exact .step _ (hrole _) (hstep _) (reads_of_advance hadv) (.ok hahead rfl)
  · rintro t c' rfl rfl ht hadv hahead
    exact .stepEnd (ht ▸ hend) (reads_of_advance hadv) (.ok hahead rfl)

/-- Reading one given token. -/
theorem accounted_expect {word : String} (hrole : ∀ word, s.role word = .inner)
    (hstep : ∀ w, s.step policy w = next.take word w) (hend : s.endReads = 1) (hne : word ≠ "") :
    Accounted policy s (expect word) fun _ => next := by
  intro c tokens ending h
  refine accounts_read h ?_ ?_ fun _ _ _ => rfl
  · rintro t tokens' c' rfl hadv hahead
    have htake := hstep t.value
    by_cases ht : t.value = word
    · rw [if_pos ht]
      rw [Stage.take, if_pos ht] at htake
      exact .step next (hrole _) htake (reads_of_advance hadv) (.ok hahead rfl)
    · rw [if_neg ht]
      rw [Stage.take, if_neg ht] at htake
      exact .fail (hrole _) htake (reads_of_advance hadv)
  · rintro t c' rfl rfl ht hadv -
    rw [if_neg (ht ▸ hne.symm)]
    exact .failEnd hend (reads_of_advance hadv)

/-- Reading a field number. -/
theorem accounted_number {file : FileDraft} {n : Nesting} {label : Label} {type : FieldType}
    {name : String} :
    Accounted policy ⟨file, .fieldNumber n label type name⟩ number
      fun number => ⟨file, .fieldEnd n { name, number, label, type }⟩ := by
  intro c tokens ending h
  refine accounts_read h ?_ ?_ fun _ _ _ => rfl
  · rintro t tokens' c' rfl hadv hahead
    cases hnumber : FieldNumber.ofText t.value with
    | ok number =>
      have hstep : Stage.step policy ⟨file, .fieldNumber n label type name⟩ t.value
          = .ok ⟨file, .fieldEnd n { name, number, label, type }⟩ := by
        simp only [Stage.step, hnumber]
      exact .step _ rfl hstep (reads_of_advance hadv) (.ok hahead rfl)
    | error reason =>
      have hstep : Stage.step policy ⟨file, .fieldNumber n label type name⟩ t.value
          = .error (.badFieldNumber t.value reason) := by
        simp only [Stage.step, hnumber]
      exact .fail rfl hstep (reads_of_advance hadv)
  · rintro t c' rfl rfl ht hadv -
    rw [ht]
    exact .failEnd rfl (reads_of_advance hadv)

/-! ## Parts of a message -/

/-- **A message header, its keyword being next for the second time.** -/
theorem accounts_header {file : FileDraft} {around : List MessageDraft} {t : Token}
    (h : c.Ahead (t :: tokens) ending) (ht : t.value = "message") :
    Accounts policy ⟨file, .messageName around⟩ tokens ending
      (fun name => ⟨file, .item { innermost := .named name, enclosing := around }⟩)
      (c.reads.toList ++ [t]) [] (header c) := by
  obtain ⟨c', hadv, hahead, -, -⟩ := advance_of_cons h
  have hkeyword : expect "message" c = .ok () c' := by
    rw [expect, Reading.bind_of_ok hadv, if_pos ht]
    rfl
  rw [header, Reading.bind_of_ok hkeyword, ← reads_of_advance hadv]
  have hname : Accounted policy ⟨file, .messageName around⟩ advance
      fun t => ⟨file, .messageStart t.value around⟩ :=
    accounted_advance (k := fun w => ⟨file, .messageStart w around⟩) (fun _ => rfl)
      (fun _ => rfl) rfl
  refine (hname c' tokens ending hahead).bind fun t => ?_
  refine Accounted.bind (accounted_expect (fun _ => rfl) (fun _ => rfl) rfl (by decide)) ?_
  exact fun _ => Accounted.pure rfl

/-- **A field, its label being next for the second time.** -/
theorem accounts_field {file : FileDraft} {n : Nesting} {l : Label} {t : Token}
    (h : c.Ahead (t :: tokens) ending) (ht : Label.ofKeyword? t.value = some l) :
    Accounts policy ⟨file, .fieldType n l⟩ tokens ending
      (fun f => ⟨file, .item (n.addField f)⟩) (c.reads.toList ++ [t]) [] (field c) := by
  obtain ⟨c', hadv, hahead, -, -⟩ := advance_of_cons h
  have hlabel : label c = .ok l c' := by
    rw [label, Reading.bind_of_ok hadv, ht]
    rfl
  rw [field, Reading.bind_of_ok hlabel, ← reads_of_advance hadv]
  have htype : Accounted policy ⟨file, .fieldType n l⟩ advance
      fun t => ⟨file, .fieldName n l (.ofWord t.value)⟩ :=
    accounted_advance (k := fun w => ⟨file, .fieldName n l (.ofWord w)⟩) (fun _ => rfl)
      (fun _ => rfl) rfl
  refine (htype c' tokens ending hahead).bind fun type => ?_
  have hname : Accounted policy ⟨file, .fieldName n l (.ofWord type.value)⟩ advance
      fun t => ⟨file, .fieldEquals n l (.ofWord type.value) t.value⟩ :=
    accounted_advance (k := fun w => ⟨file, .fieldEquals n l (.ofWord type.value) w⟩)
      (fun _ => rfl) (fun _ => rfl) rfl
  refine hname.bind fun name => ?_
  refine Accounted.bind (accounted_expect (fun _ => rfl) (fun _ => rfl) rfl (by decide)) ?_
  refine fun _ => accounted_number.bind fun number => ?_
  refine Accounted.bind (accounted_expect (fun _ => rfl) (fun _ => rfl) rfl (by decide)) ?_
  exact fun _ => Accounted.pure rfl

/-- **An item of a body.** -/
theorem accounts_item (policy : UnknownContent) (file : FileDraft) (n : Nesting)
    (h : c.Ahead tokens ending) :
    Accounts policy ⟨file, .item n⟩ tokens ending (.afterItem file) c.reads.toList
      (unknownItem? c).toList (item policy n c) := by
  refine accounts_read h ?_ ?_ ?_
  · rintro t tokens' c' rfl hadv hahead
    have hne : t.value ≠ "" := h.value_ne t List.mem_cons_self
    have hunknown : unknownItem? c
        = if Role.ofItem t.value = .unknown then some t else none := by
      rw [unknownItem?_of_advance hadv]
      simp only [hne, ne_eq, not_false_eq_true, true_and]
    obtain ⟨c'', hpush, hagain, htwice⟩ := exists_pushback hadv hahead hne
    cases hlabel : Label.ofKeyword? t.value with
    | some l =>
      have hrole : Stage.role ⟨file, .item n⟩ t.value = .opening :=
        if_pos (Or.inl (by rw [hlabel]; rfl))
      have hstep : Stage.step policy ⟨file, .item n⟩ t.value = .ok ⟨file, .fieldType n l⟩ := by
        simp only [Stage.step, hlabel]
      rw [if_pos Option.isSome_some, Reading.bind_of_ok hpush, hunknown,
        show Role.ofItem t.value = _ from hrole]
      exact .step _ hrole hstep htwice
        ((accounts_field hagain hlabel).map fun _ => rfl)
    | none =>
      rw [if_neg (by simp)]
      by_cases hmessage : t.value = "message"
      · have hrole : Stage.role ⟨file, .item n⟩ t.value = .opening := if_pos (Or.inr hmessage)
        have hstep : Stage.step policy ⟨file, .item n⟩ t.value
            = .ok ⟨file, .messageName (n.innermost :: n.enclosing)⟩ := by
          simp only [Stage.step, hlabel, if_pos hmessage]
        rw [if_pos hmessage, Reading.bind_of_ok hpush, hunknown,
          show Role.ofItem t.value = _ from hrole]
        exact .step _ hrole hstep htwice
          ((accounts_header hagain hmessage).map fun _ => rfl)
      · rw [if_neg hmessage]
        by_cases hclose : t.value = "\x7d"
        · have hrole : Stage.role ⟨file, .item n⟩ t.value = .inner :=
            (if_neg (by simp [hlabel, hmessage])).trans (if_pos hclose)
          have hstep : Stage.step policy ⟨file, .item n⟩ t.value
              = .ok (.afterItem file (close n)) := by
            simp only [Stage.step, hlabel, if_neg hmessage, if_pos hclose]
          rw [if_pos hclose, hunknown, show Role.ofItem t.value = _ from hrole]
          exact .step _ hrole hstep (reads_of_advance hadv) (.ok hahead rfl)
        · have hrole : Stage.role ⟨file, .item n⟩ t.value = .unknown :=
            Role.ofItem_eq_unknown_iff.mpr ⟨by simp [hlabel], hmessage, hclose⟩
          rw [if_neg hclose, if_neg hne, hunknown, show Role.ofItem t.value = _ from hrole]
          cases policy with
          | skip =>
            exact .step _ hrole (Stage.step_of_unknown hrole) (reads_of_advance hadv)
              (.ok hahead rfl)
          | reject =>
            have hstep : Stage.step .reject ⟨file, .item n⟩ t.value
                = .error (.unknownContent t.value) := by
              simp only [Stage.step, hlabel, if_neg hmessage, if_neg hclose]
            exact .fail hrole hstep (reads_of_advance hadv)
  · rintro t c' rfl rfl ht hadv -
    rw [unknownItem?_of_advance hadv, ht]
    exact .failEnd rfl (reads_of_advance hadv)
  · intro e c' hadv
    rw [unknownItem?, hadv]
    rfl

/-- **A body, up to the brace that closes the outermost message.** -/
theorem accounts_body (file : FileDraft) {n : Nesting} (h : c.Ahead tokens ending) :
    Accounts policy ⟨file, .item n⟩ tokens ending (fun m => ⟨file.addMessage m, .declaration⟩)
      c.reads.toList (unknownInBody policy n c) (body policy n c) := by
  fun_induction body policy n c generalizing tokens with
  | case1 n c n' c' hitem ih =>
    have hfirst := accounts_item policy file n h
    rw [hitem] at hfirst
    rw [unknownInBody, hitem]
    exact hfirst.andThen fun tokens' hahead => ih hahead
  | case2 n c m c' hitem =>
    have hfirst := accounts_item policy file n h
    rw [hitem] at hfirst
    rw [unknownInBody, hitem]
    exact hfirst
  | case3 n c e c' hitem =>
    have hfirst := accounts_item policy file n h
    rw [hitem] at hfirst
    rw [unknownInBody, hitem]
    exact hfirst

/-- **A whole message, its keyword being next for the second time.** -/
theorem accounts_message (file : FileDraft) {t : Token} (h : c.Ahead (t :: tokens) ending)
    (ht : t.value = "message") :
    Accounts policy ⟨file, .messageName []⟩ tokens ending
      (fun m => ⟨file.addMessage m, .declaration⟩) (c.reads.toList ++ [t])
      (unknownInMessage policy c) (message policy c) := by
  have hheader : Accounts policy ⟨file, .messageName []⟩ tokens ending
      (fun name => ⟨file, .item (.outermost name)⟩) (c.reads.toList ++ [t]) [] (header c) :=
    accounts_header h ht
  cases hc : header c with
  | ok name c' =>
    have hread : message policy c = body policy (.outermost name) c' := Reading.bind_of_ok hc
    rw [hc] at hheader
    rw [hread, unknownInMessage, hc]
    exact hheader.andThen fun _ hahead => accounts_body file hahead
  | error e c' =>
    have hread : message policy c = .error e c' := Reading.bind_of_error hc
    rw [hc] at hheader
    rw [hread, unknownInMessage, hc]
    exact hheader

/-! ## Declarations -/

/-- **A declaration; of a package, only up to its name.** -/
theorem accounts_declaration (policy : UnknownContent) (file : FileDraft) (h : c.Ahead tokens ending)
    (hne : ∀ c', declaration policy c ≠ .ok .finished c') :
    Accounts policy ⟨file, .declaration⟩ tokens ending (.afterDeclaration file) c.reads.toList
      (unknownInDeclaration policy c) (declaration policy c) := by
  refine accounts_read h ?_ ?_ ?_
  · rintro t tokens' c' rfl hadv hahead
    have hvalue : t.value ≠ "" := h.value_ne t List.mem_cons_self
    by_cases hmessage : t.value = "message"
    · have hpackage : t.value ≠ "package" := by
        rw [hmessage]
        decide
      obtain ⟨c'', hpush, hagain, htwice⟩ := exists_pushback hadv hahead hvalue
      have hrole : Stage.role ⟨file, .declaration⟩ t.value = .opening := if_pos hmessage
      have hstep : Stage.step policy ⟨file, .declaration⟩ t.value
          = .ok ⟨file, .messageName []⟩ := by
        simp only [Stage.step, if_neg hpackage, if_pos hmessage]
      have hunknown : unknownInDeclaration policy c = unknownInMessage policy c'' := by
        rw [unknownInDeclaration, hadv]
        simp only [if_pos hmessage, hpush]
      rw [if_neg hpackage, if_pos hmessage, Reading.bind_of_ok hpush, hunknown]
      refine .step _ hrole hstep htwice ?_
      exact (accounts_message file hagain hmessage).map fun _ => rfl
    · have hunknown : unknownInDeclaration policy c = [] := by
        rw [unknownInDeclaration, hadv]
        exact if_neg hmessage
      have hrole : Stage.role ⟨file, .declaration⟩ t.value = .inner := if_neg hmessage
      rw [hunknown]
      by_cases hpackage : t.value = "package"
      · have hstep : Stage.step policy ⟨file, .declaration⟩ t.value
            = .ok ⟨file, .packageName⟩ := by
          simp only [Stage.step, if_pos hpackage]
        have hname : Accounted policy ⟨file, .packageName⟩ advance
            fun t => ⟨file.setPackage t.value, .packageEnd⟩ :=
          accounted_advance (k := fun w => ⟨file.setPackage w, .packageEnd⟩) (fun _ => rfl)
            (fun _ => rfl) rfl
        rw [if_pos hpackage]
        exact .step _ hrole hstep (reads_of_advance hadv)
          ((hname c' tokens' ending hahead).map fun _ => rfl)
      · have hstep : Stage.step policy ⟨file, .declaration⟩ t.value
            = .error (.unknownDeclaration t.value) := by
          simp only [Stage.step, if_neg hpackage, if_neg hmessage]
        rw [if_neg hpackage, if_neg hmessage, if_neg hvalue]
        exact .fail hrole hstep (reads_of_advance hadv)
  · rintro t c' rfl rfl ht hadv -
    refine absurd ?_ (hne c')
    have hread : declaration policy c = _ := Reading.bind_of_ok hadv
    rw [hread, ht]
    rfl
  · intro e c' hadv
    rw [unknownInDeclaration, hadv]

/-- There is no unknown content outside messages. -/
theorem unknownInDeclaration_eq_nil {o : Opening} {c' : Cursor}
    (h : declaration policy c = .ok o c') (hne : ∀ m, o ≠ .message m) :
    unknownInDeclaration policy c = [] := by
  obtain ⟨t, c₁, hadv, h⟩ := Reading.bind_eq_ok_iff.1 h
  have hmessage : t.value ≠ "message" := by
    intro hmessage
    rw [hmessage, if_neg (by decide), if_pos rfl] at h
    obtain ⟨-, c₂, -, h⟩ := Reading.bind_eq_ok_iff.1 h
    obtain ⟨m, c₃, -, h⟩ := Reading.bind_eq_ok_iff.1 h
    cases h
    exact hne m rfl
  rw [unknownInDeclaration, hadv]
  exact if_neg hmessage

/-- Behind the name of a package, unknown content may come only behind its semicolon. -/
theorem unknownContent_of_package {name : String} {c₁ : Cursor}
    (h : declaration policy c = .ok (.package name) c₁) :
    unknownContent policy c =
      match expect ";" c₁ with
      | .ok () c₂ => unknownContent policy c₂
      | .error _ _ => [] := by
  rw [unknownContent, h]
  dsimp only
  split
  · next hexpect => rw [hexpect]
  · next hexpect => rw [hexpect]

/-- The outcome of a reader is accounted for by all that the machine reads. -/
def AccountsToEnd (policy : UnknownContent) (s : Stage) (tokens : List Token)
    (ending : Except SyntaxError Token) (before unknown : List Token)
    (r : EStateM.Result SyntaxError Cursor α) : Prop :=
  (finalCursor r).reads.toList = before ++ delivered (readings policy s tokens ending) ∧
    unknowns (readings policy s tokens ending) = unknown

theorem Accounts.toEnd {k : α → Stage} {e : SyntaxError} {c' : Cursor}
    {before unknown : List Token} (h : Accounts policy s tokens ending k before unknown
      (.error e c')) :
    AccountsToEnd policy s tokens ending before unknown (.error e c' : EStateM.Result _ _ β) := by
  obtain ⟨part, hreads, hunknown, hpart⟩ := h
  have hpart : readings policy s tokens ending = part := hpart
  subst hpart
  exact ⟨hreads, hunknown⟩

theorem Accounts.andToEnd {k : α → Stage} {a : α} {c' : Cursor}
    {before unknown unknown' : List Token} {r : EStateM.Result SyntaxError Cursor β}
    (h : Accounts policy s tokens ending k before unknown (.ok a c'))
    (hrest : ∀ tokens', c'.Ahead tokens' ending →
      AccountsToEnd policy (k a) tokens' ending c'.reads.toList unknown' r) :
    AccountsToEnd policy s tokens ending before (unknown ++ unknown') r := by
  obtain ⟨part, hreads, rfl, tokens', hahead, hpart⟩ := h
  obtain ⟨hreads', rfl⟩ := hrest tokens' hahead
  have hreads : c'.reads.toList = before ++ delivered part := hreads
  rw [AccountsToEnd, hpart, hreads', hreads, delivered_append, unknowns_append, List.append_assoc]
  exact ⟨rfl, rfl⟩

/-- **All declarations of a text.** -/
theorem accounts_declarations (policy : UnknownContent) (file : FileDraft) (h : c.Ahead tokens ending) :
    AccountsToEnd policy ⟨file, .declaration⟩ tokens ending c.reads.toList
      (unknownContent policy c) (declarations policy file c).2 := by
  have hsemicolon : ∀ file : FileDraft, Accounted policy ⟨file, .packageEnd⟩ (expect ";")
      fun _ => ⟨file, .declaration⟩ :=
    fun file => accounted_expect (fun _ => rfl) (fun _ => rfl) rfl (by decide)
  fun_induction declarations policy file c generalizing tokens with
  | case1 file c name c₁ hdecl c₂ hexpect ih =>
    have hfirst := accounts_declaration policy file h (by simp [hdecl])
    rw [hdecl, unknownInDeclaration_eq_nil hdecl (by simp)] at hfirst
    rw [unknownContent_of_package hdecl, hexpect]
    refine hfirst.andToEnd fun tokens₁ hahead₁ => ?_
    have hsecond := hsemicolon (file.setPackage name) c₁ tokens₁ ending hahead₁
    rw [hexpect] at hsecond
    exact hsecond.andToEnd fun _ hahead₂ => ih hahead₂
  | case2 file c name c₁ hdecl e c₂ hexpect =>
    have hfirst := accounts_declaration policy file h (by simp [hdecl])
    rw [hdecl, unknownInDeclaration_eq_nil hdecl (by simp)] at hfirst
    rw [unknownContent_of_package hdecl, hexpect]
    refine hfirst.andToEnd fun tokens₁ hahead₁ => ?_
    have hsecond := hsemicolon (file.setPackage name) c₁ tokens₁ ending hahead₁
    rw [hexpect] at hsecond
    exact hsecond.toEnd
  | case3 file c m c₁ hdecl ih =>
    have hfirst := accounts_declaration policy file h (by simp [hdecl])
    rw [hdecl] at hfirst
    rw [unknownContent, hdecl]
    exact hfirst.andToEnd fun _ hahead => ih hahead
  | case4 file c c₁ hdecl =>
    obtain ⟨rfl, ⟨last, rfl⟩, -⟩ := eq_nil_of_declaration h hdecl
    obtain ⟨c', hadv, -, -, -⟩ := advance_of_end h
    have hread : declaration policy c = .ok .finished c' := by
      rw [show declaration policy c = _ from Reading.bind_of_ok hadv,
        Scanner.Scan.value_of_ending h.ending]
      rfl
    obtain rfl : c₁ = c' := by
      rw [hread] at hdecl
      cases hdecl
      rfl
    rw [unknownContent, hdecl]
    exact ⟨reads_of_advance hadv, rfl⟩
  | case5 file c e c₁ hdecl =>
    have hfirst := accounts_declaration policy file h (by simp [hdecl])
    rw [hdecl] at hfirst
    rw [unknownContent, hdecl]
    exact hfirst.toEnd

end ProtoSchema.Declaration
