import ProtoSchema.Declaration.Message
import ProtoSchema.Proofs.Token.Lookahead

/-!
# Messages read by recursion

The grammar suggests a reader that calls itself for each nested message and adds what it gets to the
message it is reading. `Recursion` states its equations. The reader of messages keeps the open
messages in a `Nesting` instead and never calls itself; the equations have exactly one solution, and
it is this one.

An open message at the bottom of a nesting does not take part until everything above it is closed
(`items_within`). So the messages around the innermost one are what a recursive reader would still
have to go on with.

Main statement: `message_eq_recursion`.
-/

namespace ProtoSchema

/-! ## The recursive reader -/

/-- The equations of a reader of messages that calls itself: `readMessage` reads a whole message,
`readBody` what is left of the body of one. -/
structure Declaration.Recursion (policy : UnknownContent) (readMessage : Reading MessageDescriptor)
    (readBody : MessageDraft → Reading MessageDescriptor) : Prop where
  message : readMessage = do
    let name ← Declaration.header
    readBody (.named name)
  body : ∀ d, readBody d = do
    let token ← Cursor.advance
    if token.value = "required" ∨ token.value = "optional" ∨ token.value = "repeated" then
      Cursor.pushback
      let f ← Declaration.field
      readBody (d.addField f)
    else if token.value = "message" then
      Cursor.pushback
      let nested ← readMessage
      readBody (d.addNested nested)
    else if token.value = "\x7d" then
      return d.finish
    else if token.value = "" then
      Cursor.fail .unclosedMessage
    else
      match policy with
      | .skip => readBody d
      | .reject => Cursor.fail (.unknownContent token.value)

/-! ## Open messages further out -/

/-- A message all by itself. -/
def Nesting.alone (d : MessageDraft) : Nesting := { innermost := d, enclosing := [] }

/-- The open messages, inside further ones. -/
def Nesting.within (n : Nesting) (parent : MessageDraft) (around : List MessageDraft) : Nesting :=
  { n with enclosing := n.enclosing ++ parent :: around }

namespace Declaration

open Cursor

variable {policy : UnknownContent}

/-- What becomes of a step inside further messages: the outermost message that is closed is added to
the closest of them. -/
def BodyStep.within (parent : MessageDraft) (around : List MessageDraft) : BodyStep → BodyStep
  | .more n => .more (n.within parent around)
  | .closed m => .more { innermost := parent.addNested m, enclosing := around }

theorem close_within (n : Nesting) (parent : MessageDraft) (around : List MessageDraft) :
    close (n.within parent around) = (close n).within parent around := by
  obtain ⟨d, _ | ⟨p, ps⟩⟩ := n
  · rfl
  · rfl

/-- `body` as a reader, to be put in sequence with others. -/
def items (policy : UnknownContent) (n : Nesting) : Reading MessageDescriptor := body policy n

/-- Goes on behind an item. -/
def afterItem (policy : UnknownContent) : BodyStep → Reading MessageDescriptor
  | .more n => items policy n
  | .closed m => return m

/-- A body is an item and what comes behind it. -/
theorem items_eq (n : Nesting) : items policy n = item policy n >>= afterItem policy := by
  funext c
  rw [items, body]
  split
  case h_1 n' c' hitem =>
    rw [Reading.bind_of_ok hitem]
    rfl
  case h_2 m c' hitem =>
    rw [Reading.bind_of_ok hitem]
    rfl
  case h_3 e c' hitem => rw [Reading.bind_of_error hitem]

/-- **An item is read alike inside further messages.** -/
theorem item_within (n : Nesting) (parent : MessageDraft) (around : List MessageDraft) :
    item policy (n.within parent around) = BodyStep.within parent around <$> item policy n := by
  rw [item, item, map_bind]
  refine bind_congr fun token => ?_
  split
  · simp only [map_bind, map_pure]
    rfl
  split
  · simp only [map_bind, map_pure]
    rfl
  split
  · rw [map_pure, close_within]
  split
  · rfl
  cases policy with
  | skip => rfl
  | reject => rfl

/-- **The messages around a body wait until its outermost message is closed.** -/
theorem items_within (n : Nesting) (parent : MessageDraft) (around : List MessageDraft) :
    items policy (n.within parent around) = items policy n >>= fun m =>
      items policy { innermost := parent.addNested m, enclosing := around } := by
  funext c
  rw [items_eq, item_within, bind_map_left]
  fun_induction body policy n c with
  | case1 n c n' c₁ hitem ih =>
    rw [items_eq n, bind_assoc, Reading.bind_of_ok hitem, Reading.bind_of_ok hitem]
    rw [← bind_map_left, ← item_within, ← items_eq] at ih
    exact ih
  | case2 n c m c₁ hitem =>
    rw [items_eq n, bind_assoc, Reading.bind_of_ok hitem, Reading.bind_of_ok hitem]
    rfl
  | case3 n c e c₁ hitem =>
    rw [items_eq n, bind_assoc, Reading.bind_of_error hitem, Reading.bind_of_error hitem]

/-! ## The recursive reader has one solution -/

/-- Goes on with the messages around one that is closed, closest first. -/
def resume (readBody : MessageDraft → Reading MessageDescriptor) (around : List MessageDraft)
    (m : MessageDescriptor) : Reading MessageDescriptor :=
  around.foldlM (fun m parent => readBody (parent.addNested m)) m

/-- The reader of messages satisfies the equations. -/
theorem recursion_items (policy : UnknownContent) :
    Recursion policy (message policy) fun d => items policy (.alone d) where
  message := rfl
  body := by
    intro d
    refine (items_eq _).trans ?_
    rw [item, bind_assoc]
    refine bind_congr fun token => ?_
    simp only [Label.isSome_ofKeyword?_iff]
    split
    · simp only [bind_assoc, pure_bind]
      rfl
    split
    · have hmessage : message policy = header >>= fun name => items policy (.outermost name) := rfl
      simp only [hmessage, bind_assoc, pure_bind]
      refine bind_congr fun _ => bind_congr fun name => ?_
      exact items_within (.outermost name) d []
    split
    · rfl
    split
    · rfl
    cases policy with
    | skip => rfl
    | reject => rfl

/-- Whatever satisfies the equations reads an open message, and goes on with those around it, as
the reader of items does. -/
theorem Recursion.read_eq {readMessage : Reading MessageDescriptor}
    {readBody : MessageDraft → Reading MessageDescriptor}
    (h : Recursion policy readMessage readBody) (n : Nesting) :
    readBody n.innermost >>= resume readBody n.enclosing = item policy n >>= fun
      | .more n' => readBody n'.innermost >>= resume readBody n'.enclosing
      | .closed m => return m := by
  rw [h.body, item, bind_assoc, bind_assoc]
  refine bind_congr fun token => ?_
  simp only [Label.isSome_ofKeyword?_iff]
  split
  · simp only [bind_assoc, pure_bind]
    rfl
  split
  · simp only [h.message, bind_assoc, pure_bind]
    rfl
  split
  · obtain ⟨d, _ | ⟨parent, around⟩⟩ := n
    · rfl
    · rfl
  split
  · rfl
  cases policy with
  | skip => rfl
  | reject => rfl

/-- **Whatever satisfies the equations reads as the reader of messages does.** -/
theorem Recursion.items_eq {readMessage : Reading MessageDescriptor}
    {readBody : MessageDraft → Reading MessageDescriptor}
    (h : Recursion policy readMessage readBody) (n : Nesting) :
    items policy n = readBody n.innermost >>= resume readBody n.enclosing := by
  funext c
  show Declaration.body policy n c = _
  fun_induction Declaration.body policy n c with
  | case1 n c n' c₁ hitem ih => rw [h.read_eq, Reading.bind_of_ok hitem, ih]
  | case2 n c m c₁ hitem =>
    rw [h.read_eq, Reading.bind_of_ok hitem]
    rfl
  | case3 n c e c₁ hitem => rw [h.read_eq, Reading.bind_of_error hitem]

/-- **The reader of messages is the recursive one.** The equations of the recursive reader have one
solution; from every cursor it returns the same message or error as the reader of messages, and
leaves the same cursor. Inside further messages it goes on with them, closest first, so each item
gets into the message that is open around it. -/
theorem message_eq_recursion (policy : UnknownContent) :
    (∀ readMessage readBody, Recursion policy readMessage readBody ↔
      readMessage = message policy ∧ readBody = fun d => body policy (.alone d)) ∧
    ∀ n : Nesting, body policy n = (do
      let m ← body policy (.alone n.innermost)
      n.enclosing.foldlM (fun m parent => body policy (.alone (parent.addNested m))) m :
        Reading MessageDescriptor) := by
  refine ⟨fun readMessage readBody => ⟨fun h => ?_, ?_⟩, (recursion_items policy).items_eq⟩
  · have hbody : readBody = fun d => body policy (.alone d) := by
      funext d
      have halone := h.items_eq (.alone d)
      exact (halone.trans (bind_pure _)).symm
    refine ⟨?_, hbody⟩
    rw [h.message, hbody]
    rfl
  · rintro ⟨rfl, rfl⟩
    exact recursion_items policy

end Declaration

end ProtoSchema
