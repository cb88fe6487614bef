import ProtoSchema.Proofs.Declaration.Stage
import ProtoSchema.Proofs.Token.Lookahead

/-!
# The readers of declarations do what the machine does

Each reader is followed by the machine of `ProtoSchema.Proofs.Declaration.Stage`: where the reader
succeeds, the machine goes on at the stage that the reader has reached, with the tokens that are
then ahead; where the reader fails, the machine fails with the same error (`Follows`).

Main statements: `drive_declarations` for the loop over all declarations, and `parse_eq_drive` for
whole texts.
-/

namespace ProtoSchema.Declaration

open Cursor

variable {α β : Type} {policy : UnknownContent} {s next : Stage} {tokens : List Token}
  {ending : Except SyntaxError Token} {c : Cursor}

/-! ## Following a reader -/

/-- The outcome `r` of a reader is what the machine makes of the same tokens: `k` gives the stage
that is reached with a result. -/
def Follows (policy : UnknownContent) (s : Stage) (tokens : List Token)
    (ending : Except SyntaxError Token) (k : α → Stage)
    (r : EStateM.Result SyntaxError Cursor α) : Prop :=
  match r with
  | .ok a c => ∃ tokens', c.Ahead tokens' ending ∧
      drive policy s tokens ending = drive policy (k a) tokens' ending
  | .error e _ => drive policy s tokens ending = (s.file, .error e)

/-- A reader that the machine follows from a stage, whatever lies ahead. -/
def Simulates (policy : UnknownContent) (s : Stage) (x : Reading α) (k : α → Stage) : Prop :=
  ∀ c tokens ending, c.Ahead tokens ending → Follows policy s tokens ending k (x c)

theorem Follows.ok {k : α → Stage} {a : α} (h : c.Ahead tokens ending) (hs : s = k a) :
    Follows policy s tokens ending k (.ok a c) :=
  ⟨tokens, h, by rw [hs]⟩

/-- The machine gets to a later stage by itself, and follows the reader from there. -/
theorem Follows.trans {k : α → Stage} {r : EStateM.Result SyntaxError Cursor α}
    {tokens' : List Token}
    (hdrive : drive policy s tokens ending = drive policy next tokens' ending)
    (hfile : next.file = s.file) (h : Follows policy next tokens' ending k r) :
    Follows policy s tokens ending k r := by
  cases r with
  | ok a c =>
    obtain ⟨tokens'', hahead, hdrive'⟩ := h
    exact ⟨tokens'', hahead, hdrive.trans hdrive'⟩
  | error e c => exact hdrive.trans (hfile ▸ h)

/-- The machine takes the token that the reader has taken. -/
theorem Follows.step (next : Stage) {k : α → Stage} {r : EStateM.Result SyntaxError Cursor α}
    {t : Token} (hstep : s.step policy t.value = .ok next) (hfile : next.file = s.file)
    (h : Follows policy next tokens ending k r) : Follows policy s (t :: tokens) ending k r :=
  .trans (drive_cons_ok hstep) hfile h

/-- The machine refuses the token that the reader refuses. -/
theorem Follows.fail {k : α → Stage} {t : Token} {cause : SyntaxError.Cause}
    (hstep : s.step policy t.value = .error cause) (hc : c.current = t) :
    Follows policy s (t :: tokens) ending k (Cursor.fail cause c) := by
  subst hc
  exact drive_cons_error hstep

/-- The reader may read the end of the text as a token where the machine stops anyway. -/
theorem Follows.stepEnd {k : α → Stage} {r : EStateM.Result SyntaxError Cursor α} {last : Token}
    (hend : s.atEnd = next.atEnd) (hfile : next.file = s.file)
    (h : Follows policy next [] (.ok last) k r) : Follows policy s [] (.ok last) k r := by
  refine .trans ?_ hfile h
  rw [drive, drive, hend]

/-- The machine refuses the end of the text where the reader does. -/
theorem Follows.failEnd {k : α → Stage} {last : Token} {cause : SyntaxError.Cause}
    (hend : s.atEnd = (s.file, some cause)) (hc : c.current = last) :
    Follows policy s [] (.ok last) k (Cursor.fail cause c) := by
  change drive policy s [] (.ok last) = _
  rw [drive, hend, ← hc]
  rfl

/-- **Reading a token: it is the next one ahead, or the end of the text.** A stray character ends
the reader and the machine alike. -/
theorem follows_read {k : α → Stage} {f : Token → Reading α} (h : c.Ahead tokens ending)
    (hcons : ∀ t tokens' c', tokens = t :: tokens' → c'.Ahead tokens' ending → c'.current = t →
      c'.pushedBack = false → Follows policy s tokens ending k (f t c'))
    (hnil : ∀ t c', tokens = [] → ending = .ok t → t.value = "" → c'.Ahead [] (.ok t) →
      c'.current = t → c'.scanner.rest = [] → Follows policy s tokens ending k (f t c')) :
    Follows policy s tokens ending k ((advance >>= f) c) := by
  cases tokens with
  | cons t tokens =>
    obtain ⟨c', hadv, hahead, hcurrent, hback⟩ := advance_of_cons h
    rw [Reading.bind_of_ok hadv]
    exact hcons t tokens c' rfl hahead hcurrent hback
  | nil =>
    cases ending with
    | ok t =>
      obtain ⟨c', hadv, hahead, hcurrent, hrest⟩ := advance_of_end h
      rw [Reading.bind_of_ok hadv]
      exact hnil t c' rfl rfl (Scanner.Scan.value_of_ending h.ending) hahead hcurrent hrest
    | error e =>
      obtain ⟨c', hadv⟩ := advance_of_error h
      rw [Reading.bind_of_error hadv]
      rfl

/-- A second reader goes on with the tokens that the first has left. -/
theorem Follows.andThen {x : Reading α} {f : α → Reading β} {k : α → Stage} {k' : β → Stage}
    (hx : Follows policy s tokens ending k (x c))
    (hf : ∀ a c' tokens', c'.Ahead tokens' ending →
      drive policy s tokens ending = drive policy (k a) tokens' ending →
      Follows policy s tokens ending k' (f a c')) :
    Follows policy s tokens ending k' ((x >>= f) c) := by
  cases hxc : x c with
  | error e c' =>
    rw [hxc] at hx
    rw [Reading.bind_of_error hxc]
    exact hx
  | ok a c' =>
    rw [hxc] at hx
    rw [Reading.bind_of_ok hxc]
    obtain ⟨tokens', hahead, hdrive⟩ := hx
    exact hf a c' tokens' hahead hdrive

/-- Two readers one after the other are followed if each is. -/
theorem Follows.bind {x : Reading α} {f : α → Reading β} {k : α → Stage} {k' : β → Stage}
    (hx : Follows policy s tokens ending k (x c)) (hfile : ∀ a, (k a).file = s.file)
    (hf : ∀ a, Simulates policy (k a) (f a) k') :
    Follows policy s tokens ending k' ((x >>= f) c) := by
  refine hx.andThen ?_
  intro a c' tokens' hahead hdrive
  exact .trans hdrive (hfile a) (hf a c' tokens' ending hahead)

/-- Renaming what a reader returns, with the stage it stands for kept. -/
theorem Follows.map {x : Reading α} {g : α → β} {k : α → Stage} {k' : β → Stage}
    (hx : Follows policy s tokens ending k (x c)) (hk : ∀ a, k a = k' (g a)) :
    Follows policy s tokens ending k' ((x >>= fun a => pure (g a)) c) := by
  refine hx.andThen ?_
  intro a c' tokens' hahead hdrive
  exact ⟨tokens', hahead, hk a ▸ hdrive⟩

theorem Simulates.follows {x : Reading α} {k : α → Stage}
    {r : EStateM.Result SyntaxError Cursor α} (hx : Simulates policy s x k)
    (h : c.Ahead tokens ending) (hr : x c = r) : Follows policy s tokens ending k r :=
  hr ▸ hx c tokens ending h

theorem Simulates.bind {x : Reading α} {f : α → Reading β} {k : α → Stage} {k' : β → Stage}
    (hx : Simulates policy s x k) (hfile : ∀ a, (k a).file = s.file)
    (hf : ∀ a, Simulates policy (k a) (f a) k') : Simulates policy s (x >>= f) k' := by
  intro c tokens ending h
  exact (hx c tokens ending h).bind hfile hf

theorem Simulates.pure {k : α → Stage} {a : α} (hs : s = k a) :
    Simulates policy s (Pure.pure a) k := by
  intro c tokens ending h
  exact .ok h hs

/-! ## Single tokens -/

/-- Reading any token as a name. -/
theorem simulates_advance {k : String → Stage} (hstep : ∀ word, s.step policy word = .ok (k word))
    (hfile : ∀ word, (k word).file = s.file) (hend : s.atEnd = (k "").atEnd) :
    Simulates policy s advance fun t => k t.value := by
  intro c tokens ending h
  rw [← bind_pure advance]
  refine follows_read h ?_ ?_
  · rintro t tokens' c' rfl hahead - -
    exact .step _ (hstep t.value) (hfile _) (.ok hahead rfl)
  · rintro t c' rfl rfl ht hahead - -
    exact .stepEnd (ht ▸ hend) (hfile _) (.ok hahead rfl)

/-- Reading one given token. -/
theorem simulates_expect {word : String} (hstep : ∀ w, s.step policy w = next.take word w)
    (hfile : next.file = s.file) (hend : s.atEnd = (s.file, some (.unexpectedToken word "")))
    (hne : word ≠ "") : Simulates policy s (expect word) fun _ => next := by
  intro c tokens ending h
  refine follows_read h ?_ ?_
  · rintro t tokens' c' rfl hahead hcurrent -
    have htake := hstep t.value
    by_cases ht : t.value = word
    · rw [if_pos ht]
      rw [Stage.take, if_pos ht] at htake
      exact .step next htake hfile (.ok hahead rfl)
    · rw [if_neg ht]
      rw [Stage.take, if_neg ht] at htake
      exact .fail htake hcurrent
  · rintro t c' rfl rfl ht - hcurrent -
    rw [if_neg (ht ▸ hne.symm), ht]
    exact .failEnd hend hcurrent

/-- Reading a field number. -/
theorem simulates_number {file : FileDraft} {n : Nesting} {label : Label} {type : FieldType}
    {name : String} :
    Simulates policy ⟨file, .fieldNumber n label type name⟩ number
      fun number => ⟨file, .fieldEnd n { name, number, label, type }⟩ := by
  intro c tokens ending h
  refine follows_read h ?_ ?_
  · rintro t tokens' c' rfl hahead hcurrent -
    cases hnumber : FieldNumber.ofText t.value with
    | ok number =>
      refine .step ⟨file, .fieldEnd n { name, number, label, type }⟩ ?_ rfl
        (.ok hahead rfl)
      simp only [Stage.step, hnumber]
    | error reason => exact .fail (by simp only [Stage.step, hnumber]) hcurrent
  · rintro t c' rfl rfl ht - hcurrent -
    rw [ht]
    exact .failEnd rfl hcurrent

/-! ## Parts of a message -/

/-- **A message header, its keyword being next.** -/
theorem follows_header {file : FileDraft} {around : List MessageDraft} {t : Token}
    (h : c.Ahead (t :: tokens) ending) (ht : t.value = "message") :
    Follows policy ⟨file, .messageName around⟩ tokens ending
      (fun name => ⟨file, .item { innermost := .named name, enclosing := around }⟩) (header c) := by
  obtain ⟨c', hadv, hahead, -, -⟩ := advance_of_cons h
  have hkeyword : expect "message" c = .ok () c' := by
    rw [expect, Reading.bind_of_ok hadv, if_pos ht]
    rfl
  rw [header, Reading.bind_of_ok hkeyword]
  have hname : Simulates policy ⟨file, .messageName around⟩ advance
      fun t => ⟨file, .messageStart t.value around⟩ :=
    simulates_advance (k := fun w => ⟨file, .messageStart w around⟩) (fun _ => rfl)
      (fun _ => rfl) rfl
  refine (hname c' tokens ending hahead).bind (fun _ => rfl) fun t => ?_
  refine Simulates.bind (simulates_expect (fun _ => rfl) rfl rfl (by decide)) (fun _ => rfl) ?_
  exact fun _ => Simulates.pure rfl

/-- **A field, its label being next.** -/
theorem follows_field {file : FileDraft} {n : Nesting} {l : Label} {t : Token}
    (h : c.Ahead (t :: tokens) ending) (ht : Label.ofKeyword? t.value = some l) :
    Follows policy ⟨file, .fieldType n l⟩ tokens ending
      (fun f => ⟨file, .item (n.addField f)⟩) (field c) := by
  obtain ⟨c', hadv, hahead, -, -⟩ := advance_of_cons h
  have hlabel : label c = .ok l c' := by
    rw [label, Reading.bind_of_ok hadv, ht]
    rfl
  rw [field, Reading.bind_of_ok hlabel]
  have htype : Simulates policy ⟨file, .fieldType n l⟩ advance
      fun t => ⟨file, .fieldName n l (.ofWord t.value)⟩ :=
    simulates_advance (k := fun w => ⟨file, .fieldName n l (.ofWord w)⟩) (fun _ => rfl)
      (fun _ => rfl) rfl
  refine (htype c' tokens ending hahead).bind (fun _ => rfl) fun type => ?_
  have hname : Simulates policy ⟨file, .fieldName n l (.ofWord type.value)⟩ advance
      fun t => ⟨file, .fieldEquals n l (.ofWord type.value) t.value⟩ :=
    simulates_advance (k := fun w => ⟨file, .fieldEquals n l (.ofWord type.value) w⟩)
      (fun _ => rfl) (fun _ => rfl) rfl
  refine hname.bind (fun _ => rfl) fun name => ?_
  refine Simulates.bind (simulates_expect (fun _ => rfl) rfl rfl (by decide)) (fun _ => rfl) ?_
  refine fun _ => simulates_number.bind (fun _ => rfl) fun number => ?_
  refine Simulates.bind (simulates_expect (fun _ => rfl) rfl rfl (by decide)) (fun _ => rfl) ?_
  exact fun _ => Simulates.pure rfl

/-- **An item of a body.** -/
theorem simulates_item {file : FileDraft} {n : Nesting} :
    Simulates policy ⟨file, .item n⟩ (item policy n) (.afterItem file) := by
  intro c tokens ending h
  refine follows_read h ?_ ?_
  · rintro t tokens' c' rfl hahead hcurrent hback
    have hne : t.value ≠ "" := h.value_ne t List.mem_cons_self
    -- the reader pushes a label or keyword back and reads it again; the machine has taken it
    obtain ⟨c'', hpush, hagain⟩ := pushback_of_ahead hahead hback (hcurrent ▸ hne)
    rw [hcurrent] at hagain
    cases hlabel : Label.ofKeyword? t.value with
    | some l =>
      rw [if_pos Option.isSome_some, Reading.bind_of_ok hpush]
      refine .step ⟨file, .fieldType n l⟩ (by simp only [Stage.step, hlabel]) rfl ?_
      exact (follows_field hagain hlabel).map fun _ => rfl
    | none =>
      rw [if_neg (by simp)]
      by_cases hmessage : t.value = "message"
      · rw [if_pos hmessage, Reading.bind_of_ok hpush]
        refine .step ⟨file, .messageName (n.innermost :: n.enclosing)⟩
          (by simp only [Stage.step, hlabel, if_pos hmessage]) rfl ?_
        exact (follows_header hagain hmessage).map fun _ => rfl
      · rw [if_neg hmessage]
        by_cases hclose : t.value = "\x7d"
        · rw [if_pos hclose]
          refine ⟨tokens', hahead, drive_cons_ok ?_⟩
          simp only [Stage.step, hlabel, if_neg hmessage, if_pos hclose]
        · rw [if_neg hclose, if_neg hne]
          cases policy with
          | skip =>
            refine ⟨tokens', hahead, drive_cons_ok ?_⟩
            simp only [Stage.step, hlabel, if_neg hmessage, if_neg hclose]
            rfl
          | reject =>
            refine .fail ?_ hcurrent
            simp only [Stage.step, hlabel, if_neg hmessage, if_neg hclose]
  · rintro t c' rfl rfl ht - hcurrent -
    simp only [ht]
    exact .failEnd rfl hcurrent

/-- **A body, up to the brace that closes the outermost message.** -/
theorem simulates_body {file : FileDraft} {n : Nesting} :
    Simulates policy ⟨file, .item n⟩ (body policy n)
      fun m => ⟨file.addMessage m, .declaration⟩ := by
  intro c tokens ending h
  fun_induction body policy n c generalizing tokens with
  | case1 n c n' c' hitem ih =>
    obtain ⟨tokens', hahead, hdrive⟩ := simulates_item.follows h hitem
    exact .trans hdrive rfl (ih tokens' hahead)
  | case2 n c m c' hitem => exact simulates_item.follows h hitem
  | case3 n c e c' hitem => exact simulates_item.follows h hitem

/-- **A whole message, its keyword being next.** -/
theorem follows_message {file : FileDraft} {t : Token} (h : c.Ahead (t :: tokens) ending)
    (ht : t.value = "message") :
    Follows policy ⟨file, .messageName []⟩ tokens ending
      (fun m => ⟨file.addMessage m, .declaration⟩) (message policy c) :=
  (follows_header h ht).bind (fun _ => rfl) fun _ => simulates_body

/-! ## Declarations -/

/-- The stage behind what `declaration` reads. -/
def Stage.afterDeclaration (file : FileDraft) : Opening → Stage
  | .package name => ⟨file.setPackage name, .packageEnd⟩
  | .message m => ⟨file.addMessage m, .declaration⟩
  | .finished => ⟨file, .declaration⟩

/-- **A declaration; of a package, only up to its name.** -/
theorem simulates_declaration {file : FileDraft} :
    Simulates policy ⟨file, .declaration⟩ (declaration policy) (.afterDeclaration file) := by
  intro c tokens ending h
  refine follows_read h ?_ ?_
  · rintro t tokens' c' rfl hahead hcurrent hback
    have hne : t.value ≠ "" := h.value_ne t List.mem_cons_self
    by_cases hpackage : t.value = "package"
    · rw [if_pos hpackage]
      refine .step ⟨file, .packageName⟩
        (by simp only [Stage.step, if_pos hpackage]) rfl ?_
      refine follows_read hahead ?_ ?_
      · rintro name tokens'' c'' rfl hahead' - -
        exact ⟨tokens'', hahead', drive_cons_ok rfl⟩
      · rintro name c'' rfl rfl hname hahead' - -
        -- the end of the text is read as an empty name, and refused at the semicolon
        refine ⟨[], hahead', ?_⟩
        rw [hname]
        rfl
    · rw [if_neg hpackage]
      by_cases hmessage : t.value = "message"
      · obtain ⟨c'', hpush, hagain⟩ := pushback_of_ahead hahead hback (hcurrent ▸ hne)
        rw [hcurrent] at hagain
        rw [if_pos hmessage, Reading.bind_of_ok hpush]
        refine .step ⟨file, .messageName []⟩
          (by simp only [Stage.step, if_neg hpackage, if_pos hmessage]) rfl ?_
        exact (follows_message hagain hmessage).map fun _ => rfl
      · rw [if_neg hmessage, if_neg hne]
        refine .fail ?_ hcurrent
        simp only [Stage.step, if_neg hpackage, if_neg hmessage]
  · rintro t c' rfl rfl ht hahead - -
    simp only [ht]
    exact .ok hahead rfl

/-- Only the end of the text is read as the end of the declarations. -/
theorem eq_nil_of_declaration (h : c.Ahead tokens ending) {c' : Cursor}
    (hdecl : declaration policy c = .ok .finished c') :
    tokens = [] ∧ (∃ last, ending = .ok last) ∧ c'.scanner.rest = [] := by
  obtain ⟨t, c₁, hadv, hdecl⟩ := Reading.bind_eq_ok_iff.1 hdecl
  -- only a token without a value makes the reader return so
  have hvalue : t.value = "" ∧ c' = c₁ := by
    split at hdecl
    · obtain ⟨name, c₂, -, hdecl⟩ := Reading.bind_eq_ok_iff.1 hdecl
      cases hdecl
    · split at hdecl
      · obtain ⟨-, c₂, -, hdecl⟩ := Reading.bind_eq_ok_iff.1 hdecl
        obtain ⟨m, c₃, -, hdecl⟩ := Reading.bind_eq_ok_iff.1 hdecl
        cases hdecl
      · split at hdecl
        · next ht =>
          cases hdecl
          exact ⟨ht, rfl⟩
        · cases hdecl
  obtain ⟨ht, rfl⟩ := hvalue
  cases tokens with
  | cons t' tokens =>
    obtain ⟨c₂, hadv', -⟩ := advance_of_cons h
    rw [hadv'] at hadv
    cases hadv
    exact absurd ht (h.value_ne t List.mem_cons_self)
  | nil =>
    cases ending with
    | ok last =>
      obtain ⟨c₂, hadv', -, -, hrest⟩ := advance_of_end h
      rw [hadv'] at hadv
      cases hadv
      exact ⟨rfl, ⟨t, rfl⟩, hrest⟩
    | error e =>
      obtain ⟨c₂, hadv'⟩ := advance_of_error h
      rw [hadv'] at hadv
      cases hadv

/-- The outcome of reading all declarations is what the machine makes of the same tokens; where
the text is accepted, the scanner has nothing left. -/
def FollowsToEnd (policy : UnknownContent) (s : Stage) (tokens : List Token)
    (ending : Except SyntaxError Token) :
    FileDraft × EStateM.Result SyntaxError Cursor Unit → Prop
  | (file, .ok () c) => drive policy s tokens ending = (file, .ok ()) ∧ c.scanner.rest = []
  | (file, .error e _) => drive policy s tokens ending = (file, .error e)

theorem FollowsToEnd.trans {r : FileDraft × EStateM.Result SyntaxError Cursor Unit}
    {tokens' : List Token}
    (hdrive : drive policy s tokens ending = drive policy next tokens' ending)
    (h : FollowsToEnd policy next tokens' ending r) : FollowsToEnd policy s tokens ending r := by
  obtain ⟨file, _ | _⟩ := r
  · exact ⟨hdrive.trans h.1, h.2⟩
  · exact hdrive.trans h

/-- **All declarations of a text.** -/
theorem drive_declarations {file : FileDraft} (h : c.Ahead tokens ending) :
    FollowsToEnd policy ⟨file, .declaration⟩ tokens ending (declarations policy file c) := by
  have hsemicolon : ∀ file : FileDraft, Simulates policy ⟨file, .packageEnd⟩ (expect ";")
      fun _ => ⟨file, .declaration⟩ :=
    fun file => simulates_expect (fun _ => rfl) rfl rfl (by decide)
  fun_induction declarations policy file c generalizing tokens with
  | case1 file c name c₁ hdecl c₂ hexpect ih =>
    obtain ⟨tokens₁, hahead₁, hdrive₁⟩ := simulates_declaration.follows h hdecl
    obtain ⟨tokens₂, hahead₂, hdrive₂⟩ := (hsemicolon _).follows hahead₁ hexpect
    exact .trans (hdrive₁.trans hdrive₂) (ih hahead₂)
  | case2 file c name c₁ hdecl e c₂ hexpect =>
    -- the name of the package counts, though its semicolon is missing
    obtain ⟨tokens₁, hahead₁, hdrive₁⟩ := simulates_declaration.follows h hdecl
    exact hdrive₁.trans ((hsemicolon _).follows hahead₁ hexpect)
  | case3 file c m c₁ hdecl ih =>
    obtain ⟨tokens₁, hahead₁, hdrive₁⟩ := simulates_declaration.follows h hdecl
    exact .trans hdrive₁ (ih hahead₁)
  | case4 file c c₁ hdecl =>
    obtain ⟨rfl, ⟨last, rfl⟩, hrest⟩ := eq_nil_of_declaration h hdecl
    exact ⟨rfl, hrest⟩
  | case5 file c e c₁ hdecl => exact simulates_declaration.follows h hdecl

/-- **A whole text is parsed as the machine takes its tokens.** -/
theorem parse_eq_drive (policy : UnknownContent) (name source : String) :
    parse policy name source =
      let scan := (Scanner.ofSource source).readAll
      match drive policy ⟨.named name, .declaration⟩ scan.tokens scan.ending with
      | (read, .ok ()) => .ok read.finish
      | (_, .error e) => .error e := by
  have h : FollowsToEnd policy ⟨.named name, .declaration⟩ _ _
      (declarations policy (.named name) (.ofSource source)) :=
    drive_declarations (ahead_ofSource source)
  unfold parse file
  rcases hread : declarations policy (.named name) (.ofSource source) with ⟨read, ⟨⟨⟩, c⟩ | ⟨e, c⟩⟩
  · rw [hread] at h
    obtain ⟨hdrive, hrest⟩ := h
    have hfinish : finish c = .ok () c := by
      rw [finish, hrest]
      rfl
    simp only [Reading.bind_of_ok hfinish, hdrive]
    rfl
  · rw [hread] at h
    have hdrive : drive policy _ _ _ = _ := h
    simp only [hdrive]

/-- A text is accepted as the machine accepts its tokens. -/
theorem parse_eq_ok_iff_drive {name source : String} {F : FileDescriptor} :
    parse policy name source = .ok F ↔
      ∃ file, drive policy ⟨.named name, .declaration⟩ (Scanner.ofSource source).readAll.tokens
        (Scanner.ofSource source).readAll.ending = (file, .ok ()) ∧ file.finish = F := by
  rw [parse_eq_drive]
  dsimp only
  split
  · next file h => simp [h]
  · next file e h => simp [h]

/-- A text is refused with the error at which the machine stops. -/
theorem parse_eq_error_iff_drive {name source : String} {e : SyntaxError} :
    parse policy name source = .error e ↔
      ∃ file, drive policy ⟨.named name, .declaration⟩ (Scanner.ofSource source).readAll.tokens
        (Scanner.ofSource source).readAll.ending = (file, .error e) := by
  rw [parse_eq_drive]
  dsimp only
  split
  · next file h => simp [h]
  · next file e' h => simp [h]

end ProtoSchema.Declaration
