import Hopline.Proofs.Schedule.CycleSearch

/-! The search for a cycle without a bound on its depth, as rules. A rule looks a vertex up where there is
one, so a search that leaves the graph has no run, and neither has one that never ends. While all edges
stay in the graph every search has exactly one run, and the bound makes no difference to it. -/

namespace Hopline.Schedule.Graph

open Relation

inductive Quest
  /-- All that lies beyond a white vertex. -/
  | visit (vertex : Nat)
  /-- The vertices that the edges of a grey one lead to. -/
  | targets (targets : List Nat)
  /-- The vertices to start from. -/
  | starts (starts : List Nat)

/-- A finished search, with its answer and the colours that it leaves. -/
inductive Explores (graph : Graph) : Quest → Colours → Bool × Colours → Prop
  | cyclic {vertex : Nat} {targets : List Nat} {colours after : Colours} (listed : graph[vertex]? = some targets)
      (beyond : Explores graph (.targets targets) (colours.set vertex .grey) (true, after)) :
      Explores graph (.visit vertex) colours (true, after)
  | finished {vertex : Nat} {targets : List Nat} {colours after : Colours} (listed : graph[vertex]? = some targets)
      (beyond : Explores graph (.targets targets) (colours.set vertex .grey) (false, after)) :
      Explores graph (.visit vertex) colours (false, after.set vertex .black)
  | noTarget {colours : Colours} : Explores graph (.targets []) colours (false, colours)
  | grey {next : Nat} {rest : List Nat} {colours : Colours} (colour : colours[next]? = some .grey) :
      Explores graph (.targets (next :: rest)) colours (true, colours)
  | black {next : Nat} {rest : List Nat} {colours : Colours} {result : Bool × Colours}
      (colour : colours[next]? = some .black) (onward : Explores graph (.targets rest) colours result) :
      Explores graph (.targets (next :: rest)) colours result
  | white {next : Nat} {rest : List Nat} {colours after : Colours} (colour : colours[next]? = some .white)
      (visited : Explores graph (.visit next) colours (true, after)) :
      Explores graph (.targets (next :: rest)) colours (true, after)
  | clear {next : Nat} {rest : List Nat} {colours middle : Colours} {result : Bool × Colours}
      (colour : colours[next]? = some .white) (visited : Explores graph (.visit next) colours (false, middle))
      (onward : Explores graph (.targets rest) middle result) :
      Explores graph (.targets (next :: rest)) colours result
  | noStart {colours : Colours} : Explores graph (.starts []) colours (false, colours)
  | seen {start : Nat} {rest : List Nat} {colours : Colours} {colour : Colour} {result : Bool × Colours}
      (painted : colours[start]? = some colour) (coloured : colour ≠ .white)
      (onward : Explores graph (.starts rest) colours result) : Explores graph (.starts (start :: rest)) colours result
  | found {start : Nat} {rest : List Nat} {colours after : Colours} (colour : colours[start]? = some .white)
      (visited : Explores graph (.visit start) colours (true, after)) :
      Explores graph (.starts (start :: rest)) colours (true, after)
  | passed {start : Nat} {rest : List Nat} {colours middle : Colours} {result : Bool × Colours}
      (colour : colours[start]? = some .white) (visited : Explores graph (.visit start) colours (false, middle))
      (onward : Explores graph (.starts rest) middle result) :
      Explores graph (.starts (start :: rest)) colours result

/-- The search from every vertex of a white graph ends, with this answer. -/
def Decides (graph : Graph) (answer : Bool) : Prop :=
  ∃ after, graph.Explores (.starts (List.range graph.length)) (List.replicate graph.length .white) (answer, after)

variable {graph : Graph} {colours : Colours} {quest : Quest} {depth : Nat}

theorem Explores.unique {first second : Bool × Colours} (run : graph.Explores quest colours first)
    (other : graph.Explores quest colours second) : first = second := by
  induction run generalizing second with
  | cyclic listed _ ih =>
    cases other with
    | cyclic listed' beyond => cases listed.symm.trans listed'; exact ih beyond
    | finished listed' beyond => cases listed.symm.trans listed'; cases ih beyond
  | finished listed _ ih =>
    cases other with
    | cyclic listed' beyond => cases listed.symm.trans listed'; cases ih beyond
    | finished listed' beyond => cases listed.symm.trans listed'; cases ih beyond; rfl
  | noTarget => cases other; rfl
  | grey colour =>
    cases other with
    | grey => rfl
    | black colour' | white colour' | clear colour' => cases colour.symm.trans colour'
  | black colour _ ih =>
    cases other with
    | black _ onward => exact ih onward
    | grey colour' | white colour' | clear colour' => cases colour.symm.trans colour'
  | white colour _ ih =>
    cases other with
    | white _ visited => exact ih visited
    | clear _ visited => cases ih visited
    | grey colour' | black colour' => cases colour.symm.trans colour'
  | clear colour _ _ ih ih' =>
    cases other with
    | white _ visited => cases ih visited
    | clear _ visited onward => cases ih visited; exact ih' onward
    | grey colour' | black colour' => cases colour.symm.trans colour'
  | noStart => cases other; rfl
  | seen painted coloured _ ih =>
    cases other with
    | seen _ _ onward => exact ih onward
    | found colour' | passed colour' => cases painted.symm.trans colour'; exact absurd rfl coloured
  | found colour _ ih =>
    cases other with
    | seen painted coloured => cases colour.symm.trans painted; exact absurd rfl coloured
    | found _ visited => exact ih visited
    | passed _ visited => cases ih visited
  | passed colour _ _ ih ih' =>
    cases other with
    | seen painted coloured => cases colour.symm.trans painted; exact absurd rfl coloured
    | found _ visited => cases ih visited
    | passed _ visited onward => cases ih visited; exact ih' onward

/-- A search never whitens anything. -/
structure Colours.Darkens (before after : Colours) : Prop where
  length : after.length = before.length
  whites : after.whites ⊆ before.whites

theorem Colours.Darkens.refl (colours : Colours) : colours.Darkens colours := ⟨rfl, Finset.Subset.refl _⟩

theorem Colours.Darkens.trans {before middle after : Colours} (first : before.Darkens middle)
    (second : middle.Darkens after) : before.Darkens after :=
  ⟨second.length.trans first.length, second.whites.trans first.whites⟩

theorem Colours.Darkens.paint (colours : Colours) (vertex : Nat) {colour : Colour} (coloured : colour ≠ .white) :
    colours.Darkens (colours.set vertex colour) :=
  ⟨List.length_set, colours.whites_set_subset vertex coloured⟩

theorem Explores.darkens {result : Bool × Colours} (run : graph.Explores quest colours result) :
    colours.Darkens result.2 := by
  induction run with
  | cyclic _ _ ih => exact (Colours.Darkens.paint _ _ (by simp)).trans ih
  | finished _ _ ih => exact ((Colours.Darkens.paint _ _ (by simp)).trans ih).trans (.paint _ _ (by simp))
  | noTarget | grey | noStart => exact .refl _
  | black _ _ ih | white _ _ ih | seen _ _ _ ih | found _ _ ih => exact ih
  | clear _ _ _ ih ih' | passed _ _ _ ih ih' => exact ih.trans ih'

theorem Colours.getElem?_of_inside {vertex : Nat} (inside : vertex < colours.length) :
    colours[vertex]? = some (colours.of vertex) := by
  simp [Colours.of, inside]

/-- No edge leads out of the graph. -/
def Closed (graph : Graph) : Prop := ∀ targets ∈ graph, ∀ target ∈ targets, target < graph.length

instance (graph : Graph) : Decidable graph.Closed :=
  inferInstanceAs (Decidable (∀ targets ∈ graph, ∀ target ∈ targets, target < graph.length))

/-- A bounded search of this depth has time for every white vertex. -/
def Deep (graph : Graph) (depth : Nat) : Prop :=
  ∀ (vertex : Nat) (colours : Colours), colours.length = graph.length → colours.of vertex = .white →
    colours.whites.card ≤ depth → graph.Explores (.visit vertex) colours (graph.visit depth vertex colours)

theorem Deep.all (deep : graph.Deep depth) (targets : List Nat) (sized : colours.length = graph.length)
    (inside : ∀ target ∈ targets, target < graph.length) (enough : colours.whites.card ≤ depth) :
    graph.Explores (.targets targets) colours (graph.visitAll depth targets colours) := by
  induction targets generalizing colours with
  | nil =>
    rw [visitAll]
    exact .noTarget
  | cons next rest ih =>
    obtain ⟨within, inside⟩ := List.forall_mem_cons.mp inside
    have looked := Colours.getElem?_of_inside (sized.symm ▸ within)
    rw [visitAll]
    cases colour : colours.of next with
    | grey => exact .grey (looked.trans (congrArg some colour))
    | black => exact .black (looked.trans (congrArg some colour)) (ih sized inside enough)
    | white =>
      have visited := deep next colours sized colour enough
      have looked := looked.trans (congrArg some colour)
      generalize graph.visit depth next colours = result at visited
      obtain ⟨answer, after⟩ := result
      cases answer with
      | true => exact .white looked visited
      | false =>
        have darker := visited.darkens
        apply Explores.clear looked visited
        apply ih (darker.length.trans sized) inside
        exact (Finset.card_le_card darker.whites).trans enough

theorem deep_of_closed (closed : graph.Closed) (depth : Nat) : graph.Deep depth := by
  induction depth with
  | zero =>
    intro vertex colours _ white enough
    have some := Finset.card_pos.mpr ⟨vertex, Colours.mem_whites.mpr white⟩
    omega
  | succ depth ih =>
    intro vertex colours sized white enough
    have inside : vertex < graph.length := sized ▸ Colours.lt_of_not_black (by simp [white])
    have listed : graph[vertex]? = some (graph.successors vertex) := by simp [successors, inside]
    have kept := closed (graph.successors vertex) (List.mem_of_getElem? listed)
    have fewer := Finset.card_lt_card (Colours.whites_set_ssubset white (by simp : Colour.grey ≠ .white))
    have room : (Colours.whites (colours.set vertex .grey)).card ≤ depth := by omega
    have beyond := ih.all (graph.successors vertex) (List.length_set.trans sized) kept room
    rw [visit]
    generalize graph.visitAll depth (graph.successors vertex) (colours.set vertex .grey) = result at beyond
    obtain ⟨answer, after⟩ := result
    cases answer with
    | true => exact .cyclic listed beyond
    | false => exact .finished listed beyond

theorem exists_explores_starts (closed : graph.Closed) (starts : List Nat) (sized : colours.length = graph.length)
    (inside : ∀ start ∈ starts, start < graph.length) :
    ∃ after, graph.Explores (.starts starts) colours (graph.searchFrom starts colours, after) := by
  induction starts generalizing colours with
  | nil => exact ⟨colours, .noStart⟩
  | cons start rest ih =>
    obtain ⟨within, inside⟩ := List.forall_mem_cons.mp inside
    have looked := Colours.getElem?_of_inside (sized.symm ▸ within)
    have skip : colours.of start ≠ .white →
        ∃ after, graph.Explores (.starts (start :: rest)) colours (graph.searchFrom rest colours, after) := by
      intro coloured
      obtain ⟨after, onward⟩ := ih sized inside
      exact ⟨after, .seen looked coloured onward⟩
    rw [searchFrom]
    cases colour : colours.of start with
    | grey | black => exact skip (by simp [colour])
    | white =>
      have enough : colours.whites.card ≤ graph.length := colours.card_whites_le.trans_eq sized
      have visited := deep_of_closed closed graph.length start colours sized colour enough
      have looked := looked.trans (congrArg some colour)
      generalize graph.visit graph.length start colours = result at visited
      obtain ⟨answer, middle⟩ := result
      cases answer with
      | true => exact ⟨middle, .found looked visited⟩
      | false =>
        obtain ⟨after, onward⟩ := ih (visited.darkens.length.trans sized) inside
        exact ⟨after, .passed looked visited onward⟩

/-- The search ends with one answer, and that answer is whether some vertex can reach itself. -/
theorem hasCycle_exact (closed : graph.Closed) :
    (∀ answer, graph.Decides answer ↔ answer = graph.hasCycle) ∧
    (graph.hasCycle = true ↔ ∃ vertex, TransGen graph.Edge vertex vertex) := by
  obtain ⟨after, ends⟩ := exists_explores_starts closed (List.range graph.length) List.length_replicate
    fun start member => List.mem_range.mp member
  refine ⟨?_, ?_⟩
  · intro answer
    constructor
    · intro ⟨_, other⟩
      exact congrArg Prod.fst (other.unique ends)
    · rintro rfl
      exact ⟨after, ends⟩
  · rw [← Bool.not_eq_false, hasCycle_eq_false_iff, Acyclic, not_forall_not]

/-- Two edges lead to one vertex, and the cycle is a self-loop that no other vertex leads to. -/
theorem hasCycle_exact_scattered : Graph.Closed [[1, 1], [], [2], []] ∧ Graph.Decides [[1, 1], [], [2], []] true := by
  have closed : Graph.Closed [[1, 1], [], [2], []] := by decide
  obtain ⟨decides, cyclic⟩ := hasCycle_exact closed
  have loop : Graph.Edge [[1, 1], [], [2], []] 2 2 := List.mem_singleton_self 2
  exact ⟨closed, (decides true).mpr (cyclic.mpr ⟨2, .single loop⟩).symm⟩

end Hopline.Schedule.Graph
