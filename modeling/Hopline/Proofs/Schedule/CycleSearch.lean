import Hopline.Proofs.Schedule.Paths
import Mathlib.Data.Finset.Card
import Mathlib.Data.Finset.Filter
import Mathlib.Data.Finset.Range

/-! The search for a cycle finds one exactly if there is one, whatever the graph. A search that shows no
cycle leaves the path alone that it was started from, and blackens all that lies beyond its start. -/

namespace Hopline.Schedule.Graph

open Relation

def Colours.whites (colours : Colours) : Finset Nat :=
  (Finset.range colours.length).filter fun vertex => colours.of vertex = .white

variable {graph : Graph} {colours before after : Colours} {vertex : Nat} {depth : Nat}

theorem Colours.of_set (colours : Colours) {vertex : Nat} (inside : vertex < colours.length) (colour : Colour)
    (other : Nat) : Colours.of (colours.set vertex colour) other = if other = vertex then colour else colours.of other := by
  simp only [Colours.of, List.getD_eq_getElem?_getD, List.getElem?_set]
  split
  next same => simp [same]
  next apart => simp [Ne.symm apart]

theorem Colours.lt_of_not_black (coloured : colours.of vertex ≠ .black) : vertex < colours.length := by
  by_contra outside
  apply coloured
  simp [Colours.of, List.getElem?_eq_none (Nat.le_of_not_lt outside)]

theorem Colours.mem_whites : vertex ∈ colours.whites ↔ colours.of vertex = .white := by
  simp only [whites, Finset.mem_filter, Finset.mem_range, and_iff_right_iff_imp]
  intro white
  apply lt_of_not_black
  rw [white]
  nofun

theorem Colours.card_whites_le (colours : Colours) : colours.whites.card ≤ colours.length :=
  (Finset.card_filter_le _ _).trans_eq (Finset.card_range _)

theorem Colours.whites_set_subset (colours : Colours) (vertex : Nat) {colour : Colour} (coloured : colour ≠ .white) :
    Colours.whites (colours.set vertex colour) ⊆ colours.whites := by
  rcases Nat.lt_or_ge vertex colours.length with inside | outside
  · intro other member
    rw [mem_whites, colours.of_set inside] at member
    split at member
    next => exact absurd member coloured
    next => exact mem_whites.mpr member
  · rw [List.set_eq_of_length_le outside]

theorem Colours.whites_set_ssubset (white : colours.of vertex = .white) {colour : Colour} (coloured : colour ≠ .white) :
    Colours.whites (colours.set vertex colour) ⊂ colours.whites := by
  refine ⟨colours.whites_set_subset vertex coloured, ?_⟩
  intro all
  have inside : vertex < colours.length := lt_of_not_black (by rw [white]; nofun)
  have still := mem_whites.mp (all (mem_whites.mpr white))
  rw [colours.of_set inside, if_pos rfl] at still
  exact coloured still

/-- What is black is finished with: nothing beyond it is of any other colour, and it is on no cycle. -/
structure Finished (graph : Graph) (colours : Colours) : Prop where
  length : colours.length = graph.length
  closed : ∀ vertex, colours.of vertex = .black → ∀ next, graph.Edge vertex next → colours.of next = .black
  clear : ∀ vertex, colours.of vertex = .black → ¬ TransGen graph.Edge vertex vertex

theorem Finished.reaches (finished : graph.Finished colours) (black : colours.of vertex = .black) {last : Nat}
    (path : graph.Reaches vertex last) : colours.of last = .black := by
  induction path with
  | refl => exact black
  | tail _ edge ih => exact finished.closed _ ih _ edge

/-- What a search leaves that has shown no cycle. -/
structure Leaves (graph : Graph) (before after : Colours) : Prop where
  finished : graph.Finished after
  grey : ∀ vertex, after.of vertex = .grey ↔ before.of vertex = .grey
  black : ∀ vertex, before.of vertex = .black → after.of vertex = .black

theorem Leaves.refl (finished : graph.Finished colours) : graph.Leaves colours colours :=
  ⟨finished, fun _ => Iff.rfl, fun _ black => black⟩

theorem Leaves.trans {middle : Colours} (first : graph.Leaves before middle) (second : graph.Leaves middle after) :
    graph.Leaves before after :=
  ⟨second.finished, fun vertex => (second.grey vertex).trans (first.grey vertex),
    fun vertex black => second.black vertex (first.black vertex black)⟩

theorem Leaves.whites_subset (leaves : graph.Leaves before after) : after.whites ⊆ before.whites := by
  intro vertex white
  rw [Colours.mem_whites] at white ⊢
  cases colour : before.of vertex with
  | white => rfl
  | grey =>
    rw [(leaves.grey vertex).mpr colour] at white
    cases white
  | black =>
    rw [leaves.black vertex colour] at white
    cases white

inductive Outcome (graph : Graph) (before : Colours) (targets : List Nat) : Bool × Colours → Prop
  | cycle {vertex : Nat} {after : Colours} (back : TransGen graph.Edge vertex vertex) : Outcome graph before targets (true, after)
  | clear {after : Colours} (leaves : graph.Leaves before after) (black : ∀ target ∈ targets, after.of target = .black) :
      Outcome graph before targets (false, after)

theorem Outcome.cons {middle : Colours} {next : Nat} {rest : List Nat} {answer : Bool × Colours}
    (leaves : graph.Leaves before middle) (black : middle.of next = .black) (outcome : graph.Outcome middle rest answer) :
    graph.Outcome before (next :: rest) answer := by
  cases outcome with
  | cycle back => exact .cycle back
  | clear leaves' black' =>
    refine .clear (leaves.trans leaves') ?_
    intro target member
    rcases List.mem_cons.mp member with rfl | member
    · exact leaves'.black target black
    · exact black' target member

/-- A search of this depth does its work from every white vertex that all grey ones lead to. -/
def Searches (graph : Graph) (depth : Nat) : Prop :=
  ∀ (vertex : Nat) (colours : Colours), graph.Finished colours → colours.of vertex = .white →
    colours.whites.card ≤ depth → (∀ grey, colours.of grey = .grey → TransGen graph.Edge grey vertex) →
    graph.Outcome colours [vertex] (graph.visit depth vertex colours)

theorem Searches.all (searches : graph.Searches depth) (targets : List Nat) (finished : graph.Finished colours)
    (enough : colours.whites.card ≤ depth)
    (beyond : ∀ target ∈ targets, ∀ grey, colours.of grey = .grey → TransGen graph.Edge grey target) :
    graph.Outcome colours targets (graph.visitAll depth targets colours) := by
  induction targets generalizing colours with
  | nil =>
    rw [visitAll]
    exact .clear (.refl finished) (List.forall_mem_nil _)
  | cons next rest ih =>
    have beyond_rest : ∀ target ∈ rest, ∀ grey, colours.of grey = .grey → TransGen graph.Edge grey target :=
      fun target member => beyond target (List.mem_cons_of_mem _ member)
    rw [visitAll]
    cases colour : colours.of next with
    | grey => exact .cycle (beyond next List.mem_cons_self next colour)
    | black => exact .cons (.refl finished) colour (ih finished enough beyond_rest)
    | white =>
      have visited := searches next colours finished colour enough (beyond next List.mem_cons_self)
      obtain ⟨answer, same⟩ : ∃ answer, graph.visit depth next colours = answer := ⟨_, rfl⟩
      rw [same] at visited ⊢
      cases visited with
      | cycle back => exact .cycle back
      | clear leaves black =>
        have fewer := Finset.card_le_card leaves.whites_subset
        apply Outcome.cons leaves (black next List.mem_cons_self)
        apply ih leaves.finished (fewer.trans enough)
        intro target member grey painted
        exact beyond_rest target member grey ((leaves.grey grey).mp painted)

theorem Finished.paint (finished : graph.Finished colours) (white : colours.of vertex = .white) :
    graph.Finished (colours.set vertex .grey) := by
  have inside : vertex < colours.length := Colours.lt_of_not_black (by rw [white]; nofun)
  have old : ∀ {other}, Colours.of (colours.set vertex .grey) other = .black ↔ colours.of other = .black := by
    intro other
    rw [colours.of_set inside]
    split
    next same => simp [same, white]
    next => rfl
  refine ⟨by rw [List.length_set, finished.length], ?_, ?_⟩
  · intro other black next edge
    exact old.mpr (finished.closed other (old.mp black) next edge)
  · intro other black
    exact finished.clear other (old.mp black)

/-- A grey vertex may be blackened once all that its edges lead to is black. It is on no cycle: a way back would
lead through what is black already. -/
theorem Finished.blacken (finished : graph.Finished colours) (grey : colours.of vertex = .grey)
    (black : ∀ next, graph.Edge vertex next → colours.of next = .black) : graph.Finished (colours.set vertex .black) := by
  have inside : vertex < colours.length := Colours.lt_of_not_black (by simp [grey])
  have kept : ∀ {other}, colours.of other = .black → Colours.of (colours.set vertex .black) other = .black := by
    intro other painted
    rw [colours.of_set inside, painted, ite_self]
  refine ⟨by rw [List.length_set, finished.length], ?_, ?_⟩
  · intro other painted next edge
    rw [colours.of_set inside] at painted
    split at painted
    next same => exact kept (black next (same ▸ edge))
    next => exact kept (finished.closed other painted next edge)
  · intro other painted
    rw [colours.of_set inside] at painted
    split at painted
    next same =>
      subst same
      intro back
      obtain ⟨next, edge, rest⟩ := TransGen.head'_iff.mp back
      have again := finished.reaches (black next edge) rest
      rw [grey] at again
      cases again
    next => exact finished.clear other painted

theorem searches (graph : Graph) (depth : Nat) : graph.Searches depth := by
  induction depth with
  | zero =>
    intro vertex colours _ white enough
    have some := Finset.card_pos.mpr ⟨vertex, Colours.mem_whites.mpr white⟩
    omega
  | succ depth ih =>
    intro vertex colours finished white enough beyond
    have inside : vertex < colours.length := Colours.lt_of_not_black (by simp [white])
    have painted := finished.paint white
    have fewer := Finset.card_lt_card (Colours.whites_set_ssubset white (by nofun : Colour.grey ≠ .white))
    have searched := ih.all (graph.successors vertex) painted
      (by omega) (by
        intro target edge grey colour
        rw [colours.of_set inside] at colour
        split at colour
        next same => exact same ▸ .single edge
        next => exact (beyond grey colour).tail edge)
    rw [visit]
    obtain ⟨answer, same⟩ : ∃ answer, graph.visitAll depth (graph.successors vertex) (colours.set vertex .grey) = answer :=
      ⟨_, rfl⟩
    rw [same] at searched ⊢
    cases searched with
    | cycle back => exact .cycle back
    | @clear after leaves black =>
      have grey : after.of vertex = .grey := by
        rw [leaves.grey, colours.of_set inside, if_pos rfl]
      have inside' : vertex < after.length := Colours.lt_of_not_black (by simp [grey])
      refine .clear ⟨leaves.finished.blacken grey black, ?_, ?_⟩ ?_
      · intro other
        rw [after.of_set inside']
        split
        next same => simp [same, white]
        next apart => rw [leaves.grey, colours.of_set inside, if_neg apart]
      · intro other old
        rw [after.of_set inside']
        split
        next => rfl
        next apart =>
          apply leaves.black
          rw [colours.of_set inside, if_neg apart, old]
      · intro target member
        rw [List.mem_singleton.mp member, after.of_set inside', if_pos rfl]

theorem searchFrom_outcome (starts : List Nat) (finished : graph.Finished colours)
    (ungrey : ∀ vertex, colours.of vertex ≠ .grey) :
    (graph.searchFrom starts colours = true → ∃ vertex, TransGen graph.Edge vertex vertex) ∧
    (graph.searchFrom starts colours = false → ∀ start ∈ starts, ¬ TransGen graph.Edge start start) := by
  induction starts generalizing colours with
  | nil => exact ⟨nofun, nofun⟩
  | cons start rest ih =>
    have onward : ∀ {later : Colours}, graph.Finished later → (∀ vertex, later.of vertex ≠ .grey) →
        later.of start = .black → (graph.searchFrom rest later = true → ∃ vertex, TransGen graph.Edge vertex vertex) ∧
        (graph.searchFrom rest later = false → ∀ vertex ∈ start :: rest, ¬ TransGen graph.Edge vertex vertex) := by
      intro later finished ungrey black
      obtain ⟨found, absent⟩ := ih finished ungrey
      refine ⟨found, ?_⟩
      intro clear vertex member
      rcases List.mem_cons.mp member with rfl | member
      · exact finished.clear vertex black
      · exact absent clear vertex member
    rw [searchFrom]
    cases colour : colours.of start with
    | grey => exact absurd colour (ungrey start)
    | black => exact onward finished ungrey colour
    | white =>
      have enough : colours.whites.card ≤ graph.length := colours.card_whites_le.trans_eq finished.length
      have visited := graph.searches graph.length start colours finished colour enough
        fun grey painted => absurd painted (ungrey grey)
      obtain ⟨answer, same⟩ : ∃ answer, graph.visit graph.length start colours = answer := ⟨_, rfl⟩
      rw [same] at visited ⊢
      cases visited with
      | cycle back => exact ⟨fun _ => ⟨_, back⟩, nofun⟩
      | clear leaves black =>
        apply onward leaves.finished ?_ (black start List.mem_cons_self)
        intro vertex painted
        exact ungrey vertex ((leaves.grey vertex).mp painted)

theorem of_replicate_white {count : Nat} (inside : vertex < count) : Colours.of (List.replicate count .white) vertex = .white := by
  simp [Colours.of, inside]

theorem finished_white (graph : Graph) : graph.Finished (List.replicate graph.length .white) := by
  have outside : ∀ {vertex}, Colours.of (List.replicate graph.length .white) vertex = .black → graph.length ≤ vertex := by
    intro vertex black
    by_contra inside
    rw [of_replicate_white (Nat.lt_of_not_le inside)] at black
    cases black
  refine ⟨List.length_replicate, ?_, ?_⟩
  · intro vertex black next edge
    exact absurd edge.source_lt (Nat.not_lt.mpr (outside black))
  · intro vertex black back
    obtain ⟨next, edge, -⟩ := TransGen.head'_iff.mp back
    exact absurd edge.source_lt (Nat.not_lt.mpr (outside black))

theorem hasCycle_eq_false_iff (graph : Graph) : graph.hasCycle = false ↔ graph.Acyclic := by
  have ungrey : ∀ vertex, Colours.of (List.replicate graph.length .white) vertex ≠ .grey := by
    intro vertex painted
    have black : Colours.of (List.replicate graph.length .white) vertex ≠ .black := by
      rw [painted]
      nofun
    have inside := Colours.lt_of_not_black black
    rw [List.length_replicate] at inside
    rw [of_replicate_white inside] at painted
    cases painted
  obtain ⟨found, absent⟩ := searchFrom_outcome (List.range graph.length) graph.finished_white ungrey
  constructor
  · intro clear vertex back
    obtain ⟨next, edge, -⟩ := TransGen.head'_iff.mp back
    exact absent clear vertex (List.mem_range.mpr edge.source_lt) back
  · intro acyclic
    rw [Bool.eq_false_iff]
    intro cycle
    obtain ⟨vertex, back⟩ := found cycle
    exact acyclic vertex back

end Hopline.Schedule.Graph
