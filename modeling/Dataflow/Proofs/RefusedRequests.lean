import Dataflow.Proofs.RequestEffects

/-!
# What a refused request leaves behind

A request makes all of its checks before its first change, with one exception: children are checked
and linked one by one. So a request that is refused leaves the graph as it was, but for the links to
the children before the first one that does not exist (`strays`). The main result,
`refused_request_leaves`, says so for every graph and every request, and says exactly when there
are such links.
-/

namespace Dataflow

namespace Graph

/-- The edges that a refused request leaves behind. -/
def strays (g : Graph) : Request → List Edge
  | .connect parent children =>
    if parent < g.size then
      parentEdges parent (children.takeWhile fun c => decide (c < g.size))
    else []
  | _ => []

theorem refused_eq_strays (g : Graph) (r : Request) : g.refused r = g.linked (g.strays r) := by
  cases r with
  | connect parent children =>
    simp only [refused, strays]
    split
    · rfl
    · simp only [linked, List.append_nil]
  | _ => simp only [refused, strays, linked, List.append_nil]

/-- Something is left behind exactly where the parent and the first child exist. -/
theorem strays_ne_nil_iff {g : Graph} {r : Request} :
    g.strays r ≠ [] ↔ ∃ parent first rest,
      r = .connect parent (first :: rest) ∧ parent < g.size ∧ first < g.size := by
  constructor
  · intro h
    cases r with
    | connect parent children =>
      cases children with
      | nil => simp [strays, parentEdges] at h
      | cons first rest =>
        by_cases hp : parent < g.size
        · by_cases hf : first < g.size
          · exact ⟨parent, first, rest, rfl, hp, hf⟩
          · simp [strays, parentEdges, hf] at h
        · simp [strays, hp] at h
    | _ => exact absurd rfl h
  · rintro ⟨parent, first, rest, rfl, hp, hf⟩
    simp [strays, parentEdges, hp, hf]

theorem linked_eq_self {g : Graph} {edges : List Edge} : g.linked edges = g ↔ edges = [] := by
  constructor
  · intro h
    have hedges : g.edges ++ edges = g.edges := congrArg Graph.edges h
    simpa using hedges
  · rintro rfl
    simp [linked]

/-- A request that fails leaves nodes, listeners and loads alone, and at most adds edges. The graph
is as before in all cases but one: several children are linked, and the parent and the first of them
exist. There the links to the children before the first missing one stay. -/
theorem refused_request_leaves (g : Graph) (r : Request) (e : GraphError) (g' : Graph)
    (h : perform r g = .error e g') :
    g' = { g with edges := g.edges ++ g.strays r } ∧
      (g' = g ↔ ¬ ∃ parent first rest,
        r = .connect parent (first :: rest) ∧ parent < g.size ∧ first < g.size) := by
  have hlinked : g' = g.linked (g.strays r) := by
    rw [perform_eq] at h
    cases hr : g.refusal? r with
    | none => simp [hr] at h
    | some e' =>
      simp only [hr, EStateM.Result.error.injEq] at h
      rw [← h.2, refused_eq_strays]
  refine ⟨hlinked, ?_⟩
  rw [hlinked, linked_eq_self, ← strays_ne_nil_iff]
  exact Classical.not_not.symm

/-- A graph of two operators. -/
def pair : Graph :=
  [Request.add (.plain none none) .empty true, .add (.plain none none) .empty true].foldl after
    empty

/-- Where the second of two children does not exist, the link to the first one stays. -/
theorem refused_request_leaves_pair :
    ∃ e g', perform (.connect 0 [1, 7]) pair = .error e g' ∧
      g' = { pair with edges := [⟨0, 1, .parent⟩] } ∧ g' ≠ pair := by
  have h : perform (.connect 0 [1, 7]) pair =
      .error (.unknownOperator 7) (pair.linked [⟨0, 1, .parent⟩]) := by rfl
  obtain ⟨hleft, hiff⟩ := refused_request_leaves pair _ _ _ h
  refine ⟨_, _, h, hleft, fun heq => hiff.mp heq ?_⟩
  exact ⟨0, 1, [7], rfl, by decide, by decide⟩

/-- Not every request that fails leaves the graph as it was. -/
theorem refused_request_not_harmless :
    ¬ ∀ (requests : List Request) (r : Request) (e : GraphError) (g' : Graph),
      perform r (requests.foldl after empty) = .error e g' → g' = requests.foldl after empty := by
  intro h
  have hedge := h [.add (.plain none none) .empty true, .add (.plain none none) .empty true]
    (.connect 0 [1, 7]) (.unknownOperator 7) (pair.linked [⟨0, 1, .parent⟩]) rfl
  exact absurd (linked_eq_self.mp hedge) (List.cons_ne_nil _ _)

end Graph

end Dataflow
