import ProtoSchema.Resolver

/-!
# The order of a search

Chains of resolvers may hold further chains, to any depth. A chain within a chain makes an answer of
its own where all its members miss a file, and the search goes on behind it all the same. So a tree
of chains searches as if its leaves stood in one list: a chain may be dissolved into the one around
it (`openFirst_chain_cons`), and the leaves are asked from left to right (`openFirst_leavesOfAll`).

Main statement: `openFile_chain`.
-/

namespace ProtoSchema.Resolver

variable {r : Resolver} {members rest : List Resolver} {name : String}

/-! ## Answers -/

/-- An answer that no file has the name, whatever name it carries. The search goes on behind it. -/
def IsMiss (answer : Except CompileError SourceFile) : Prop :=
  ∃ file, answer = .error (.notFound file)

theorem isMiss_notFound (file : String) : IsMiss (.error (.notFound file)) := ⟨file, rfl⟩

theorem isNotFound_iff {e : CompileError} : e.isNotFound = true ↔ IsMiss (.error e) := by
  constructor
  · intro h
    cases e with
    | notFound file => exact isMiss_notFound file
    | _ => cases h
  · rintro ⟨file, h⟩
    cases h
    rfl

/-- **A member that misses the file is passed over.** -/
theorem openFirst_cons_of_isMiss (h : IsMiss (openFile r name)) :
    openFirst (r :: rest) name = openFirst rest name := by
  obtain ⟨file, hfile⟩ := h
  rw [openFirst, hfile]
  rfl

/-- **A member that does not miss the file ends the search.** -/
theorem openFirst_cons_of_not_isMiss (h : ¬IsMiss (openFile r name)) :
    openFirst (r :: rest) name = openFile r name := by
  rw [openFirst]
  cases hopen : openFile r name with
  | ok file => rfl
  | error e =>
    rw [hopen] at h
    exact if_neg (mt isNotFound_iff.mp h)

/-! ## Lists of members -/

theorem openFirst_append_of_isMiss (h : IsMiss (openFirst members name)) :
    openFirst (members ++ rest) name = openFirst rest name := by
  induction members with
  | nil => rfl
  | cons r members ih =>
    rw [List.cons_append]
    by_cases hmiss : IsMiss (openFile r name)
    · rw [openFirst_cons_of_isMiss hmiss] at h ⊢
      exact ih h
    · rw [openFirst_cons_of_not_isMiss hmiss] at h
      exact absurd h hmiss

theorem openFirst_append_of_not_isMiss (h : ¬IsMiss (openFirst members name)) :
    openFirst (members ++ rest) name = openFirst members name := by
  induction members with
  | nil => exact absurd (isMiss_notFound name) h
  | cons r members ih =>
    rw [List.cons_append]
    by_cases hmiss : IsMiss (openFile r name)
    · rw [openFirst_cons_of_isMiss hmiss] at h ⊢
      rw [openFirst_cons_of_isMiss hmiss]
      exact ih h
    · rw [openFirst_cons_of_not_isMiss hmiss, openFirst_cons_of_not_isMiss hmiss]

/-- **A chain may be dissolved into the chain around it.** -/
theorem openFirst_chain_cons (members rest : List Resolver) (name : String) :
    openFirst (.chain members :: rest) name = openFirst (members ++ rest) name := by
  have hchain : openFile (.chain members) name = openFirst members name := by rw [openFile]
  by_cases hmiss : IsMiss (openFirst members name)
  · rw [openFirst_append_of_isMiss hmiss, openFirst_cons_of_isMiss (hchain ▸ hmiss)]
  · rw [openFirst_append_of_not_isMiss hmiss, openFirst_cons_of_not_isMiss (hchain ▸ hmiss), hchain]

/-- **What stands behind a member that does not miss the file has no influence.** -/
theorem openFirst_append_cons_congr (h : ¬IsMiss (openFile r name))
    (members rest rest' : List Resolver) :
    openFirst (members ++ r :: rest) name = openFirst (members ++ r :: rest') name := by
  by_cases hmiss : IsMiss (openFirst members name)
  · rw [openFirst_append_of_isMiss hmiss, openFirst_append_of_isMiss hmiss,
      openFirst_cons_of_not_isMiss h, openFirst_cons_of_not_isMiss h]
  · rw [openFirst_append_of_not_isMiss hmiss, openFirst_append_of_not_isMiss hmiss]

theorem openFirst_cons_congr {rest' : List Resolver}
    (h : openFirst rest name = openFirst rest' name) :
    openFirst (r :: rest) name = openFirst (r :: rest') name := by
  by_cases hmiss : IsMiss (openFile r name)
  · rw [openFirst_cons_of_isMiss hmiss, openFirst_cons_of_isMiss hmiss, h]
  · rw [openFirst_cons_of_not_isMiss hmiss, openFirst_cons_of_not_isMiss hmiss]

/-! ## Leaves -/

mutual

/-- The resolvers in a tree of chains that are no chains, from left to right. -/
def leaves : Resolver → List (String → Except CompileError SourceFile)
  | .single openNamed => [openNamed]
  | .chain members => leavesOfAll members

/-- The leaves of the members of a chain. -/
def leavesOfAll : List Resolver → List (String → Except CompileError SourceFile)
  | [] => []
  | r :: rest => leaves r ++ leavesOfAll rest

end

theorem leavesOfAll_append (members rest : List Resolver) :
    leavesOfAll (members ++ rest) = leavesOfAll members ++ leavesOfAll rest := by
  induction members with
  | nil => rfl
  | cons r members ih => rw [List.cons_append, leavesOfAll, leavesOfAll, ih, List.append_assoc]

/-- **The leaves of what is added come last.** -/
theorem leavesOfAll_add (members : List Resolver) (r : Resolver) :
    leavesOfAll (add members r) = leavesOfAll members ++ leaves r := by
  rw [add, leavesOfAll_append, leavesOfAll, leavesOfAll, List.append_nil]

mutual

theorem openFirst_leaves_append (r : Resolver) (rest : List Resolver) (name : String) :
    openFirst ((leaves r).map .single ++ rest) name = openFirst (r :: rest) name := by
  cases r with
  | single openNamed => rw [leaves, List.map_singleton, List.singleton_append]
  | chain members =>
    rw [leaves, openFirst_leavesOfAll_append members rest name, openFirst_chain_cons]

theorem openFirst_leavesOfAll_append (members rest : List Resolver) (name : String) :
    openFirst ((leavesOfAll members).map .single ++ rest) name
      = openFirst (members ++ rest) name := by
  cases members with
  | nil => rw [leavesOfAll, List.map_nil]
  | cons r members =>
    rw [leavesOfAll, List.map_append, List.append_assoc, openFirst_leaves_append r _ name,
      List.cons_append]
    exact openFirst_cons_congr (openFirst_leavesOfAll_append members rest name)

end

/-- **A tree of chains opens what one chain of all its leaves opens.** -/
theorem openFirst_leavesOfAll (members : List Resolver) (name : String) :
    openFirst ((leavesOfAll members).map .single) name = openFirst members name := by
  have h := openFirst_leavesOfAll_append members [] name
  rwa [List.append_nil, List.append_nil] at h

/-! ## The leaf that decides -/

theorem openFile_single (leaf : String → Except CompileError SourceFile) (name : String) :
    openFile (.single leaf) name = leaf name := by rw [openFile]

/-- **In one chain of leaves the first that does not miss the file decides.** If there is none, the
answer is the chain's own. -/
theorem openFirst_singles (leaves : List (String → Except CompileError SourceFile))
    (name : String) :
    (∃ before leaf after, leaves = before ++ leaf :: after ∧ (∀ l ∈ before, IsMiss (l name)) ∧
        ¬IsMiss (leaf name) ∧ openFirst (leaves.map .single) name = leaf name) ∨
      (∀ l ∈ leaves, IsMiss (l name)) ∧
        openFirst (leaves.map .single) name = .error (.notFound name) := by
  induction leaves with
  | nil => exact Or.inr ⟨by simp, rfl⟩
  | cons leaf later ih =>
    rw [List.map_cons]
    by_cases hmiss : IsMiss (leaf name)
    · rw [openFirst_cons_of_isMiss (openFile_single leaf name ▸ hmiss)]
      rcases ih with ⟨before, decisive, after, rfl, hbefore, hdecisive, hfirst⟩ | ⟨hall, hfirst⟩
      · exact Or.inl ⟨leaf :: before, decisive, after, rfl,
          List.forall_mem_cons.mpr ⟨hmiss, hbefore⟩, hdecisive, hfirst⟩
      · exact Or.inr ⟨List.forall_mem_cons.mpr ⟨hmiss, hall⟩, hfirst⟩
    · rw [openFirst_cons_of_not_isMiss (openFile_single leaf name ▸ hmiss), openFile_single]
      exact Or.inl ⟨[], leaf, later, rfl, by simp, hmiss, rfl⟩

/-- **A tree of chains searches its leaves from left to right.** It answers as the first leaf does
that does not miss the file, with the file or the error of that leaf; where all leaves miss it, with
the name that was asked for, whatever names the leaves have given. Leaves behind the one that
decides have no influence. What is added to a chain is searched last. -/
theorem openFile_chain (members : List Resolver) (name : String) :
    ((∃ before leaf after, leavesOfAll members = before ++ leaf :: after ∧
        (∀ l ∈ before, IsMiss (l name)) ∧ ¬IsMiss (leaf name) ∧
        openFile (.chain members) name = leaf name) ∨
      (∀ l ∈ leavesOfAll members, IsMiss (l name)) ∧
        openFile (.chain members) name = .error (.notFound name)) ∧
    (∀ members' before leaf after after', leavesOfAll members = before ++ leaf :: after →
      leavesOfAll members' = before ++ leaf :: after' → ¬IsMiss (leaf name) →
      openFile (.chain members') name = openFile (.chain members) name) ∧
    (∀ r, leavesOfAll (add members r) = leavesOfAll members ++ leaves r) := by
  have hchain : ∀ members, openFile (.chain members) name
      = openFirst ((leavesOfAll members).map .single) name := by
    intro members
    rw [openFile, openFirst_leavesOfAll]
  refine ⟨?_, ?_, leavesOfAll_add members⟩
  · rw [hchain]
    exact openFirst_singles (leavesOfAll members) name
  · intro members' before leaf after after' hleaves hleaves' hleaf
    rw [hchain, hchain, hleaves, hleaves', List.map_append, List.map_append, List.map_cons,
      List.map_cons]
    exact openFirst_append_cons_congr (openFile_single leaf name ▸ hleaf) _ _ _

/-- An inner chain that finds nothing, whatever its member says, does not end the search. -/
example : openFile (.chain [.chain [.single fun _ => .error (.notFound "other"), .chain []],
    ofList [("a", "text")], failing (.text "unreachable")]) "a"
      = .ok { path := none, content := "text" } := rfl

end ProtoSchema.Resolver
