import Hopline.Schedule.Graph
import Mathlib.Data.List.Nodup
import Mathlib.Logic.Relation

/-! Paths in a graph of dependencies, and what one more edge does to them. A new edge closes a cycle
exactly if its target reaches its source already. -/

namespace Hopline.Schedule.Graph

open Relation

def Edge (graph : Graph) (source target : Nat) : Prop := target ∈ graph.successors source

/-- A path may have no edge at all. -/
def Reaches (graph : Graph) : Nat → Nat → Prop := ReflTransGen graph.Edge

def Acyclic (graph : Graph) : Prop := ∀ vertex, ¬ TransGen graph.Edge vertex vertex

variable {graph : Graph} {source target vertex : Nat}

theorem successors_of_outside (outside : graph.length ≤ vertex) : graph.successors vertex = [] := by
  simp [successors, List.getElem?_eq_none outside]

theorem Edge.source_lt (edge : graph.Edge source target) : source < graph.length := by
  by_contra outside
  unfold Edge at edge
  rw [successors_of_outside (Nat.le_of_not_lt outside)] at edge
  cases edge

@[simp] theorem length_addEdge : (graph.addEdge source target).length = graph.length := by
  simp [addEdge]

theorem successors_addEdge (inside : source < graph.length) (vertex : Nat) :
    (graph.addEdge source target).successors vertex =
      if vertex = source then graph.successors source ++ [target] else graph.successors vertex := by
  simp only [successors, addEdge, List.getD_eq_getElem?_getD, List.getElem?_modify]
  split
  next same =>
    subst same
    simp [List.getElem?_eq_getElem inside]
  next apart =>
    rw [if_neg (Ne.symm apart)]
    simp

theorem edge_addEdge (inside : source < graph.length) {first second : Nat} :
    (graph.addEdge source target).Edge first second ↔
      graph.Edge first second ∨ first = source ∧ second = target := by
  unfold Edge
  rw [successors_addEdge inside]
  split
  next same => simp [same]
  next apart => simp [apart]

theorem dropEdge_addEdge (graph : Graph) (source target : Nat) :
    (graph.addEdge source target).dropEdge source = graph := by
  apply List.ext_getElem?
  intro index
  simp only [addEdge, dropEdge, List.getElem?_modify]
  split
  next => cases graph[index]? <;> simp
  next => cases graph[index]? <;> rfl

theorem successors_append_nil (graph : Graph) (vertex : Nat) :
    successors (graph ++ [[]]) vertex = graph.successors vertex := by
  simp only [successors, List.getD_eq_getElem?_getD, List.getElem?_append]
  split
  next => rfl
  next outside =>
    rw [List.getElem?_eq_none (Nat.le_of_not_lt outside)]
    cases rest : vertex - graph.length <;> simp

theorem edge_append_nil {first second : Nat} : Edge (graph ++ [[]]) first second ↔ graph.Edge first second := by
  unfold Edge
  rw [successors_append_nil]

theorem not_edge_replicate {count : Nat} : ¬ Edge (List.replicate count []) source target := by
  unfold Edge successors
  rw [List.getD_eq_getElem?_getD, List.getElem?_replicate]
  split <;> exact List.not_mem_nil

/-- A path with a new edge uses it or does not; if it does, what comes before the first use and what comes after
the last one are old. -/
theorem old_or_through_new (inside : source < graph.length) {first last : Nat}
    (path : TransGen (graph.addEdge source target).Edge first last) :
    TransGen graph.Edge first last ∨ graph.Reaches first source ∧ graph.Reaches target last := by
  induction path with
  | single edge =>
    rcases (edge_addEdge inside).mp edge with old | ⟨rfl, rfl⟩
    · exact .inl (.single old)
    · exact .inr ⟨.refl, .refl⟩
  | tail _ edge ih =>
    rcases (edge_addEdge inside).mp edge with old | ⟨rfl, rfl⟩
    · rcases ih with before | ⟨before, after⟩
      · exact .inl (before.tail old)
      · exact .inr ⟨before, after.tail old⟩
    · rcases ih with before | ⟨before, -⟩
      · exact .inr ⟨before.to_reflTransGen, .refl⟩
      · exact .inr ⟨before, .refl⟩

theorem acyclic_addEdge (acyclic : graph.Acyclic) (inside : source < graph.length) :
    (graph.addEdge source target).Acyclic ↔ ¬ graph.Reaches target source := by
  constructor
  · intro clear back
    apply clear source
    have new : (graph.addEdge source target).Edge source target := (edge_addEdge inside).mpr (.inr ⟨rfl, rfl⟩)
    apply TransGen.head' new
    exact ReflTransGen.mono (fun _ _ edge => (edge_addEdge inside).mpr (.inl edge)) target source back
  · intro apart vertex cycle
    rcases old_or_through_new inside cycle with old | ⟨before, after⟩
    · exact acyclic vertex old
    · exact apart (after.trans before)

end Hopline.Schedule.Graph
