import Mathlib.Data.List.Induction
import Mathlib.Logic.Function.Basic
import Rumour.Proofs.Population.Spreading

set_option autoImplicit false

/-!
The ways of the rumour. After a sequence of meetings the infected nodes are those at the end of a chain from
the origin, along which each meeting comes later than the one before. A meeting carries the rumour one hop.
-/

namespace Rumour.Population

/-- A chain of nodes from the origin, each joined to the next by a meeting of its own time. -/
structure Chain (meetings : List Meeting) (hops : Nat) (nodes : Nat -> NodeId) (times : Nat -> Nat) :
    Prop where
  begins : nodes 0 = .origin
  later : ∀ early late, early < late → late < hops → times early < times late
  joined : ∀ hop, hop < hops →
    ∃ meeting, meetings[times hop]? = some meeting ∧ meeting.Joins (nodes hop) (nodes (hop + 1))

def Chained (meetings : List Meeting) (node : NodeId) : Prop :=
  ∃ hops nodes times, Chain meetings hops nodes times ∧ nodes hops = node

namespace Chain

variable {meetings : List Meeting} {meeting : Meeting} {hops : Nat} {nodes : Nat -> NodeId}
  {times : Nat -> Nat}

theorem origin (meetings : List Meeting) : Chained meetings .origin := by
  refine ⟨0, fun _ => .origin, fun _ => 0, ?_, rfl⟩
  exact
    { begins := rfl
      later := by omega
      joined := by omega }

theorem time_lt (chain : Chain meetings hops nodes times) {hop : Nat} (within : hop < hops) :
    times hop < meetings.length := by
  obtain ⟨meeting, found, _⟩ := chain.joined hop within
  exact (List.getElem?_eq_some_iff.1 found).1

theorem drop_last (chain : Chain meetings (hops + 1) nodes times) : Chain meetings hops nodes times :=
  { begins := chain.begins
    later := fun early late before within => chain.later early late before (by omega)
    joined := fun hop within => chain.joined hop (by omega) }

theorem append (chain : Chain meetings hops nodes times) (more : List Meeting) :
    Chain (meetings ++ more) hops nodes times := by
  refine ⟨chain.begins, chain.later, fun hop within => ?_⟩
  rw [List.getElem?_append_left (chain.time_lt within)]
  exact chain.joined hop within

theorem of_append {more : List Meeting} (chain : Chain (meetings ++ more) hops nodes times)
    (early : ∀ hop, hop < hops → times hop < meetings.length) : Chain meetings hops nodes times := by
  refine ⟨chain.begins, chain.later, fun hop within => ?_⟩
  rw [← List.getElem?_append_left (early hop within)]
  exact chain.joined hop within

theorem snoc (chain : Chain meetings hops nodes times) {node : NodeId}
    (joins : meeting.Joins (nodes hops) node) : Chained (meetings ++ [meeting]) node := by
  -- One more node behind the last one, reached at the time of the last meeting.
  let further := Function.update nodes (hops + 1) node
  let longer := Function.update times hops meetings.length
  have oldNodes : ∀ hop, hop ≤ hops → further hop = nodes hop := fun hop within =>
    Function.update_of_ne (by omega) _ _
  have oldTimes : ∀ hop, hop < hops → longer hop = times hop := fun hop within =>
    Function.update_of_ne (by omega) _ _
  have lastNode : further (hops + 1) = node := Function.update_self _ _ _
  have lastTime : longer hops = meetings.length := Function.update_self _ _ _
  refine ⟨hops + 1, further, longer, ?_, lastNode⟩
  constructor
  next => rw [oldNodes 0 (Nat.zero_le _), chain.begins]
  next =>
    intro early late before within
    rw [oldTimes early (by omega)]
    by_cases last : late = hops
    · rw [last, lastTime]
      exact chain.time_lt (by omega)
    · rw [oldTimes late (by omega)]
      exact chain.later early late before (by omega)
  next =>
    intro hop within
    rw [oldNodes hop (by omega)]
    by_cases last : hop = hops
    · rw [last, lastTime, lastNode]
      exact ⟨meeting, by simp, joins⟩
    · rw [oldTimes hop (by omega), oldNodes (hop + 1) (by omega)]
      exact (chain.append [meeting]).joined hop (by omega)

/-- The last meeting can only be the last hop of a chain, as times grow along it. -/
theorem split_last (chain : Chain (meetings ++ [meeting]) (hops + 1) nodes times) :
    Chain meetings (hops + 1) nodes times ∨
      Chain meetings hops nodes times ∧ meeting.Joins (nodes hops) (nodes (hops + 1)) := by
  have bound : times hops < meetings.length + 1 := by
    simpa using chain.time_lt (Nat.lt_succ_self hops)
  have before : ∀ hop, hop < hops → times hop < times hops := fun hop within =>
    chain.later hop hops within (Nat.lt_succ_self hops)
  by_cases last : times hops = meetings.length
  next =>
    have early := chain.drop_last.of_append fun hop within => last ▸ before hop within
    obtain ⟨found, listed, joins⟩ := chain.joined hops (Nat.lt_succ_self hops)
    rw [last, List.getElem?_concat_length] at listed
    cases listed
    exact .inr ⟨early, joins⟩
  next =>
    -- No hop is of the last meeting, so the chain is one of the meetings before it.
    refine .inl (chain.of_append fun hop within => ?_)
    rcases Nat.lt_succ_iff_lt_or_eq.1 within with inner | rfl
    · exact Nat.lt_of_lt_of_le (before hop inner) (Nat.le_of_lt_succ bound)
    · omega

end Chain

theorem chained_nil_iff (node : NodeId) : Chained [] node ↔ node = .origin := by
  constructor
  · rintro ⟨hops, nodes, times, chain, rfl⟩
    cases hops with
    | zero => exact chain.begins
    | succ hops => exact absurd (chain.time_lt (Nat.zero_lt_succ _)) (by simp)
  · rintro rfl
    exact Chain.origin []

theorem chained_append_iff (meetings : List Meeting) (meeting : Meeting) (node : NodeId) :
    Chained (meetings ++ [meeting]) node ↔
      Chained meetings node ∨ ∃ source, Chained meetings source ∧ meeting.Joins source node := by
  constructor
  · rintro ⟨hops, nodes, times, chain, rfl⟩
    cases hops with
    | zero => exact .inl ⟨0, nodes, times, chain.of_append (by omega), rfl⟩
    | succ hops =>
        rcases chain.split_last with early | ⟨early, joins⟩
        · exact .inl ⟨hops + 1, nodes, times, early, rfl⟩
        · exact .inr ⟨nodes hops, ⟨hops, nodes, times, early, rfl⟩, joins⟩
  · rintro (⟨hops, nodes, times, chain, rfl⟩ | ⟨source, ⟨hops, nodes, times, chain, rfl⟩, joins⟩)
    · exact ⟨hops, nodes, times, chain.append [meeting], rfl⟩
    · exact chain.snoc joins

def holdAll : List Meeting -> EStateM Fault Population Unit
  | [] => pure ()
  | meeting :: rest => do
      meeting.hold
      holdAll rest

theorem holdAll_append {front : List Meeting} {meeting : Meeting} {start middle : Population}
    (held : holdAll front start = .ok () middle) :
    holdAll (front ++ [meeting]) start = meeting.hold middle := by
  induction front generalizing start with
  | nil =>
      cases held
      simp only [List.nil_append, holdAll, Bind.bind, EStateM.bind]
      cases meeting.hold middle <;> simp [pure, EStateM.pure]
  | cons first rest ih =>
      simp only [List.cons_append, holdAll, Bind.bind, EStateM.bind] at held ⊢
      cases ran : first.hold start with
      | error fault left => simp [ran] at held
      | ok _ next =>
          simp only [ran] at held
          exact ih held

theorem holdAll_chained {size : Nat} (positive : 0 < size) (meetings : List Meeting)
    (inside : ∀ meeting ∈ meetings, ∀ node ∈ meeting.members, node.index < size) :
    ∃ last, holdAll meetings (fresh size) = .ok () last ∧ last.size = size ∧
      ∀ node, last.Infected node ↔ Chained meetings node := by
  -- On the last meeting, as chains grow at their end.
  induction meetings using List.reverseRecOn with
  | nil =>
      refine ⟨fresh size, rfl, size_fresh size, fun node => ?_⟩
      rw [infected_fresh_iff positive, chained_nil_iff]
  | append_singleton front meeting ih =>
      obtain ⟨middle, held, sized, chained⟩ :=
        ih fun earlier member => inside earlier (List.mem_append_left _ member)
      have members : middle.Inside meeting.members := by
        intro node member
        rw [sized]
        exact inside meeting (by simp) node member
      obtain ⟨last, ran, spreads⟩ := Meeting.hold_spreads members
      refine ⟨last, (holdAll_append held).trans ran, spreads.size.trans sized, fun node => ?_⟩
      rw [spreads.infected, chained_append_iff]
      simp only [Meeting.Reaches, chained]

/-- Meetings inside the population come to their end, with just those nodes infected to which a chain leads;
any further meeting infects just the nodes that an infected node meets in it. -/
theorem infected_iff_chain {size : Nat} {start : Population} (created : ofSize size = .ok start)
    (meetings : List Meeting)
    (inside : ∀ meeting ∈ meetings, ∀ node ∈ meeting.members, node.index < size) :
    ∃ last, holdAll meetings start = .ok () last ∧
      (∀ node, last.isInfected node = .ok true ↔
        node = .origin ∨ ∃ hops nodes times, Chain meetings hops nodes times ∧ nodes hops = node) ∧
      ∀ meeting : Meeting, (∀ node ∈ meeting.members, node.index < size) →
        ∃ next, meeting.hold last = .ok () next ∧
          ∀ node, next.isInfected node = .ok true ↔
            last.isInfected node = .ok true ∨
              ∃ source, last.isInfected source = .ok true ∧ meeting.Joins source node := by
  obtain ⟨positive, _, rfl⟩ := (ofSize_eq_ok_iff size start).1 created
  obtain ⟨last, held, sized, chained⟩ := holdAll_chained positive meetings inside
  refine ⟨last, held, fun node => ?_, fun meeting members => ?_⟩
  · refine (chained node).trans ⟨.inr, ?_⟩
    rintro (rfl | chain)
    · exact Chain.origin meetings
    · exact chain
  · rw [← sized] at members
    obtain ⟨next, ran, spreads⟩ := Meeting.hold_spreads members
    exact ⟨next, ran, spreads.infected⟩

/-- Node 2 pulls from node 1 while node 3 is its contact too. -/
def pullMeetings : List Meeting :=
  [{ node := { index := 0 }, contacts := [{ index := 1 }] },
    { node := { index := 2 }, contacts := [{ index := 1 }, { index := 3 }] },
    { node := { index := 3 }, contacts := [{ index := 3 }] }]

theorem pullMeetings_chains :
    ofSize 4 = .ok (fresh 4) ∧
      (∀ meeting ∈ pullMeetings, ∀ node ∈ meeting.members, node.index < 4) ∧
      holdAll pullMeetings (fresh 4) = .ok () { flags := #[true, true, true, false], infected := 3 } ∧
      (∃ hops nodes times, Chain pullMeetings hops nodes times ∧ nodes hops = { index := 2 }) ∧
      ¬ ∃ hops nodes times, Chain pullMeetings hops nodes times ∧ nodes hops = { index := 3 } := by
  have created : ofSize 4 = .ok (fresh 4) := rfl
  have inside : ∀ meeting ∈ pullMeetings, ∀ node ∈ meeting.members, node.index < 4 := by decide
  have held : holdAll pullMeetings (fresh 4) =
      .ok () { flags := #[true, true, true, false], infected := 3 } := rfl
  obtain ⟨last, ran, chained, _⟩ := infected_iff_chain created pullMeetings inside
  rw [held] at ran
  cases ran
  refine ⟨created, inside, held, ?_, fun chain => ?_⟩
  · rcases (chained { index := 2 }).1 rfl with origin | chain
    · cases origin
    · exact chain
  · cases (chained { index := 3 }).2 (.inr chain)

end Rumour.Population
