import Mathlib.Data.List.Nodup
import Mathlib.Logic.Function.Basic
import Mathlib.Tactic

/-! Rings of nodes that are linked both ways, as a list head and the entries
behind it. -/

namespace Alisl.Base

/-- The two pointers of every node; `none` is NULL. -/
structure Links (Node : Type) where
  next : Node → Option Node
  prev : Node → Option Node

namespace Links

variable {Node : Type}

section

variable [DecidableEq Node]

def initHead (links : Links Node) (head : Node) : Links Node :=
  ⟨Function.update links.next head (some head), Function.update links.prev head (some head)⟩

def clear (links : Links Node) (node : Node) : Links Node :=
  ⟨Function.update links.next node none, Function.update links.prev node none⟩

def add (links : Links Node) (new prev next : Node) : Links Node :=
  ⟨Function.update (Function.update links.next new (some next)) prev (some new),
    Function.update (Function.update links.prev next (some new)) new (some prev)⟩

/-- The result of following a NULL pointer is `none`. -/
def addTail (links : Links Node) (new head : Node) : Option (Links Node) :=
  (links.prev head).map (fun prev => links.add new prev head)

def del (links : Links Node) (entry : Node) : Option (Links Node) :=
  (links.prev entry).bind (fun prev => (links.next entry).map (fun next =>
    clear ⟨Function.update links.next prev (some next),
      Function.update links.prev next (some prev)⟩ entry))

/-- The entries met from a position until the head. -/
def walk (links : Links Node) (head : Node) : Nat → Node → Option (List Node)
  | 0, _ => none
  | fuel + 1, pos =>
      if pos = head then some []
      else (links.next pos).bind (fun next => (links.walk head fuel next).map (pos :: ·))

def entries (links : Links Node) (head : Node) (fuel : Nat) : Option (List Node) :=
  (links.next head).bind (links.walk head fuel)

end

def Joined (links : Links Node) (left right : Node) : Prop :=
  links.next left = some right ∧ links.prev right = some left

def Path (links : Links Node) : Node → List Node → Node → Prop
  | first, [], last => links.Joined first last
  | first, node :: nodes, last => links.Joined first node ∧ links.Path node nodes last

structure Ring (links : Links Node) (head : Node) (nodes : List Node) : Prop where
  path : links.Path head nodes head
  nodup : (head :: nodes).Nodup

/-- Nothing but the named nodes is touched. -/
def AgreeOff (links after : Links Node) (nodes : List Node) : Prop :=
  ∀ node, node ∉ nodes → after.next node = links.next node ∧ after.prev node = links.prev node

variable {links after : Links Node} {head node first final : Node} {nodes front back : List Node}

theorem path_append : links.Path first (front ++ node :: back) final ↔
    links.Path first front node ∧ links.Path node back final := by
  induction front generalizing first with
  | nil => rfl
  | cons next front ih => rw [List.cons_append, Path, Path, ih, and_assoc]

theorem Path.agree (path : links.Path first nodes final)
    (next : ∀ node ∈ first :: nodes, after.next node = links.next node)
    (prev : ∀ node ∈ nodes ++ [final], after.prev node = links.prev node) :
    after.Path first nodes final := by
  induction nodes generalizing first with
  | nil =>
      rw [Path, Joined, next first (List.mem_cons_self ..), prev final (List.mem_singleton.mpr rfl)]
      exact path
  | cons node nodes ih =>
      rw [List.forall_mem_cons] at next
      rw [List.cons_append, List.forall_mem_cons] at prev
      rw [Path, Joined, next.1, prev.1]
      exact ⟨path.1, ih path.2 next.2 prev.2⟩

/-- The node before the end of a path. -/
theorem Path.last (path : links.Path first nodes final) :
    (nodes = [] ∧ links.Joined first final) ∨
      ∃ front node, nodes = front ++ [node] ∧ links.Path first front node ∧
        links.Joined node final := by
  rcases List.eq_nil_or_concat' nodes with rfl | ⟨front, node, rfl⟩
  · exact .inl ⟨rfl, path⟩
  · exact .inr ⟨front, node, rfl, path_append.mp path⟩

theorem Ring.next_head (ring : links.Ring head nodes) :
    links.next head = some (nodes.headD head) := by
  have path := ring.path
  cases nodes with
  | nil => exact path.1
  | cons node nodes => exact path.1.1

theorem Ring.next_first (ring : links.Ring head (node :: nodes)) :
    links.next node = some (nodes.headD head) := by
  have path := ring.path.2
  cases nodes with
  | nil => exact path.1
  | cons next nodes => exact path.1.1

/-- The node behind one of the ring's nodes. -/
theorem Ring.next_inner (ring : links.Ring head (front ++ node :: back)) :
    links.next node = some (back.headD head) := by
  have path := (path_append.mp ring.path).2
  cases back with
  | nil => exact path.1
  | cons next back => exact path.1.1

theorem Path.next_mem {other : Node} (path : links.Path first nodes final)
    (member : node ∈ first :: nodes) (next : links.next node = some other) :
    other ∈ nodes ++ [final] := by
  induction nodes generalizing first with
  | nil =>
      rw [List.mem_singleton.mp member, path.1] at next
      rw [← Option.some.inj next]
      exact List.mem_singleton.mpr rfl
  | cons second nodes ih =>
      rcases List.mem_cons.mp member with rfl | later
      · rw [path.1.1] at next
        rw [← Option.some.inj next]
        exact List.mem_cons_self ..
      · exact List.mem_cons_of_mem _ (ih path.2 later)

/-- Following the ring from one of its nodes stays on it. -/
theorem Ring.next_mem {other : Node} (ring : links.Ring head nodes)
    (member : node ∈ head :: nodes) (next : links.next node = some other) :
    other ∈ head :: nodes := by
  have after := ring.path.next_mem member next
  rw [List.mem_append, List.mem_singleton] at after
  exact List.mem_cons.mpr after.symm

theorem Ring.agree (ring : links.Ring head nodes)
    (same : ∀ node ∈ head :: nodes, after.next node = links.next node ∧
      after.prev node = links.prev node) : after.Ring head nodes := by
  constructor
  case path =>
      apply ring.path.agree
      · intro node member
        exact (same node member).1
      · intro node member
        apply (same node _).2
        rw [List.mem_append, List.mem_singleton] at member
        exact List.mem_cons.mpr member.symm
  case nodup => exact ring.nodup

theorem Ring.agreeOff (ring : links.Ring head nodes) {touched : List Node}
    (agree : links.AgreeOff after touched) (apart : ∀ node ∈ head :: nodes, node ∉ touched) :
    after.Ring head nodes :=
  ring.agree (fun node member => agree node (apart node member))

theorem AgreeOff.mono {less more : List Node} (agree : links.AgreeOff after less)
    (subset : less ⊆ more) : links.AgreeOff after more :=
  fun node outside => agree node (fun member => outside (subset member))

theorem AgreeOff.trans {middle : Links Node} {touched : List Node}
    (early : links.AgreeOff middle touched) (late : middle.AgreeOff after touched) :
    links.AgreeOff after touched := by
  intro node outside
  rw [(late node outside).1, (late node outside).2]
  exact early node outside

variable [DecidableEq Node]

theorem clear_agreeOff : links.AgreeOff (links.clear node) [node] := by
  intro other outside
  rw [List.mem_singleton] at outside
  simp [clear, outside]

theorem clear_of_none (next : links.next node = none) (prev : links.prev node = none) :
    links.clear node = links := by
  rw [clear, Function.update_eq_self_iff.mpr next.symm, Function.update_eq_self_iff.mpr prev.symm]

theorem initHead_agreeOff : links.AgreeOff (links.initHead head) [head] := by
  intro other outside
  rw [List.mem_singleton] at outside
  simp [initHead, outside]

theorem ring_initHead : (links.initHead head).Ring head [] := by
  constructor
  case path => simp [Path, Joined, initHead]
  case nodup => simp

theorem Ring.addTail (ring : links.Ring head nodes) (fresh : node ∉ head :: nodes) :
    ∃ after, links.addTail node head = some after ∧ after.Ring head (nodes ++ [node]) ∧
      links.AgreeOff after (node :: head :: nodes) := by
  have nodup : (head :: (nodes ++ [node])).Nodup := by
    rw [← List.cons_append, List.nodup_append]
    refine ⟨ring.nodup, List.nodup_singleton node, ?_⟩
    intro left member right single
    rw [List.mem_singleton] at single
    rw [single]
    rintro rfl
    exact fresh member
  have other : node ≠ head := by
    rintro rfl
    exact fresh (List.mem_cons_self ..)
  rcases ring.path.last with ⟨rfl, joined⟩ | ⟨front, end_, rfl, path, joined⟩
  · refine ⟨links.add node head head, by rw [Links.addTail, joined.2, Option.map_some], ?_, ?_⟩
    · exact ⟨by simp [Path, Joined, add, other, other.symm], nodup⟩
    · intro touched outside
      simp only [List.mem_cons, List.not_mem_nil, or_false, not_or] at outside
      simp [add, outside]
  · have apart : node ≠ end_ := by
      rintro rfl
      exact fresh (by simp)
    have ring_nodup := ring.nodup
    simp only [List.mem_cons, List.mem_append, List.not_mem_nil, or_false, not_or] at fresh
    simp only [List.nodup_cons, List.mem_append, List.mem_singleton, not_or, List.nodup_append,
      List.not_mem_nil, not_false_eq_true, List.nodup_nil, and_self, true_and] at ring_nodup
    rcases ring_nodup with ⟨⟨headFront, headEnd⟩, _, frontEnd⟩
    refine ⟨links.add node end_ head, by rw [Links.addTail, joined.2, Option.map_some], ?_, ?_⟩
    · refine ⟨?_, nodup⟩
      rw [List.append_assoc, List.singleton_append, path_append]
      constructor
      · apply path.agree
        · intro touched member
          have notEnd : touched ≠ end_ := by
            rcases List.mem_cons.mp member with rfl | inside
            · exact headEnd
            · exact frontEnd touched inside end_ rfl
          have notNew : touched ≠ node := by
            rintro rfl
            rcases List.mem_cons.mp member with same | inside
            · exact fresh.1 same
            · exact fresh.2.1 inside
          simp [add, notEnd, notNew]
        · intro touched member
          have notHead : touched ≠ head := by
            rintro rfl
            rcases List.mem_append.mp member with inside | single
            · exact headFront inside
            · exact headEnd (List.mem_singleton.mp single)
          have notNew : touched ≠ node := by
            rintro rfl
            rcases List.mem_append.mp member with inside | single
            · exact fresh.2.1 inside
            · exact apart (List.mem_singleton.mp single)
          simp [add, notHead, notNew]
      · simp [Path, Joined, add, other.symm, apart]
    · intro touched outside
      simp only [List.mem_cons, List.mem_append, List.not_mem_nil, or_false, not_or] at outside
      simp [add, outside]

/-- Taking a node out between its neighbours. -/
def bypass (links : Links Node) (node prev next : Node) : Links Node :=
  clear ⟨Function.update links.next prev (some next),
    Function.update links.prev next (some prev)⟩ node

theorem bypass_next {prev next other : Node} (notPrev : other ≠ prev) (notNode : other ≠ node) :
    (links.bypass node prev next).next other = links.next other := by
  simp [bypass, clear, notPrev, notNode]

theorem bypass_prev {prev next other : Node} (notNext : other ≠ next) (notNode : other ≠ node) :
    (links.bypass node prev next).prev other = links.prev other := by
  simp [bypass, clear, notNext, notNode]

theorem bypass_joined {prev next : Node} (notPrev : prev ≠ node) (notNext : next ≠ node) :
    (links.bypass node prev next).Joined prev next := by
  simp [Joined, bypass, clear, notPrev, notNext]

/-- The way to the node now leads to its successor. -/
theorem Path.bypass {next : Node} (path : links.Path head front node)
    (nodup : (head :: front).Nodup) (apart : node ∉ head :: front) (notNext : next ≠ node)
    (fresh : next ∉ front) :
    ∃ prev, prev ∈ head :: front ∧ links.prev node = some prev ∧
      (links.bypass node prev next).Path head front next := by
  rcases path.last with ⟨rfl, joined⟩ | ⟨less, prev, rfl, path', joined⟩
  · refine ⟨head, List.mem_cons_self .., joined.2, bypass_joined ?_ notNext⟩
    rintro rfl
    exact apart (List.mem_cons_self ..)
  · refine ⟨prev, by simp, joined.2, path_append.mpr ⟨?_, bypass_joined ?_ notNext⟩⟩
    · rw [← List.cons_append, List.nodup_append] at nodup
      apply path'.agree
      · intro other member
        apply bypass_next
        · exact nodup.2.2 other member prev (List.mem_singleton.mpr rfl)
        · rintro rfl
          exact apart (List.mem_append_left [prev] member)
      · intro other member
        apply bypass_prev
        · rintro rfl
          exact fresh member
        · rintro rfl
          exact apart (List.mem_cons_of_mem head member)
    · rintro rfl
      exact apart (by simp)

theorem del_eq {prev next : Node} (before : links.prev node = some prev)
    (behind : links.next node = some next) :
    links.del node = some (links.bypass node prev next) := by
  rw [del, before, Option.bind_some, behind, Option.map_some]
  rfl

theorem Ring.del (ring : links.Ring head (front ++ node :: back)) :
    ∃ after, links.del node = some after ∧ after.Ring head (front ++ back) ∧
      links.AgreeOff after (head :: (front ++ node :: back)) ∧
      after.next node = none ∧ after.prev node = none := by
  have nodup : (head :: (front ++ back)).Nodup := by
    apply List.Nodup.sublist _ ring.nodup
    apply List.Sublist.cons_cons
    exact List.Sublist.append_left (List.sublist_cons_self node back) front
  have all := ring.nodup
  rw [← List.cons_append, List.nodup_append, List.nodup_cons (a := node)] at all
  rcases all with ⟨frontNodup, ⟨nodeBack, backNodup⟩, apart⟩
  have nodeFront : node ∉ head :: front :=
    fun member => apart node member node (List.mem_cons_self ..) rfl
  have headBack : head ∉ back := fun member =>
    apart head (List.mem_cons_self ..) head (List.mem_cons_of_mem node member) rfl
  have notHead : head ≠ node := fun same => nodeFront (same ▸ List.mem_cons_self ..)
  rcases path_append.mp ring.path with ⟨before, behind⟩
  have outcome : ∃ prev next, prev ∈ head :: front ∧ next ∈ back ++ [head] ∧
      links.prev node = some prev ∧ links.next node = some next ∧
      (links.bypass node prev next).Path head (front ++ back) head := by
    cases back with
    | nil =>
        have headFront : head ∉ front := (List.nodup_cons.mp frontNodup).1
        rcases before.bypass frontNodup nodeFront notHead headFront with
          ⟨prev, member, joined, path⟩
        rw [List.append_nil]
        exact ⟨prev, head, member, by simp, joined, behind.1, path⟩
    | cons next rest =>
        have notNext : next ≠ node := by
          rintro rfl
          exact nodeBack (List.mem_cons_self ..)
        have fresh : next ∉ front := fun member =>
          apart next (List.mem_cons_of_mem head member) next (by simp) rfl
        rcases before.bypass frontNodup nodeFront notNext fresh with ⟨prev, member, joined, path⟩
        refine ⟨prev, next, member, by simp, joined, behind.1.1, path_append.mpr ⟨path, ?_⟩⟩
        rw [List.nodup_cons] at backNodup
        apply behind.2.agree
        · intro other inside
          apply bypass_next
          · rintro rfl
            exact apart other member other (List.mem_cons_of_mem node inside) rfl
          · rintro rfl
            exact nodeBack inside
        · intro other inside
          apply bypass_prev
          · rintro rfl
            rcases List.mem_append.mp inside with later | single
            · exact backNodup.1 later
            · exact headBack (List.mem_singleton.mp single ▸ List.mem_cons_self ..)
          · rintro rfl
            rcases List.mem_append.mp inside with later | single
            · exact nodeBack (List.mem_cons_of_mem next later)
            · exact notHead (List.mem_singleton.mp single).symm
  rcases outcome with ⟨prev, next, prevMember, nextMember, prevEq, nextEq, path⟩
  refine ⟨_, del_eq prevEq nextEq, ⟨path, nodup⟩, ?_, by simp [bypass, clear],
    by simp [bypass, clear]⟩
  intro other outside
  have notNode : other ≠ node := by
    rintro rfl
    exact outside (by simp)
  constructor
  · apply bypass_next _ notNode
    rintro rfl
    apply outside
    rw [← List.cons_append]
    exact List.mem_append_left _ prevMember
  · apply bypass_prev _ notNode
    rintro rfl
    apply outside
    rcases List.mem_append.mp nextMember with later | single
    · exact List.mem_cons_of_mem head (List.mem_append_right front (List.mem_cons_of_mem node later))
    · rw [List.mem_singleton.mp single]
      exact List.mem_cons_self ..

theorem Ring.remove (ring : links.Ring head nodes) (member : node ∈ nodes) :
    ∃ after, links.del node = some after ∧ after.Ring head (nodes.erase node) ∧
      links.AgreeOff after (head :: nodes) ∧ after.next node = none ∧ after.prev node = none := by
  rcases List.append_of_mem member with ⟨front, back, rfl⟩
  have nodup := (List.nodup_cons.mp ring.nodup).2
  rw [List.nodup_append] at nodup
  have apart : node ∉ front := fun there => nodup.2.2 node there node (List.mem_cons_self ..) rfl
  rw [List.erase_append_right _ apart, List.erase_cons_head]
  exact ring.del

/-- Walking a ring meets its nodes. -/
theorem walk_path {fuel : Nat} (path : links.Path first nodes head) (apart : head ∉ first :: nodes)
    (enough : nodes.length + 2 ≤ fuel) : links.walk head fuel first = some (first :: nodes) := by
  induction nodes generalizing first fuel with
  | nil =>
      rcases fuel with _ | _ | fuel
      · simp at enough
      · simp at enough
      · have other : first ≠ head := fun same => apart (same ▸ List.mem_cons_self ..)
        rw [walk, if_neg other, path.1, Option.bind_some, walk, if_pos rfl, Option.map_some]
  | cons node nodes ih =>
      rcases fuel with _ | fuel
      · simp at enough
      · rw [List.mem_cons, not_or] at apart
        rw [List.length_cons] at enough
        rw [walk, if_neg (Ne.symm apart.1), path.1.1, Option.bind_some,
          ih path.2 apart.2 (by omega), Option.map_some]

theorem Ring.entries (ring : links.Ring head nodes) {fuel : Nat}
    (enough : nodes.length + 1 ≤ fuel) : links.entries head fuel = some nodes := by
  have path := ring.path
  cases nodes with
  | nil =>
      rcases fuel with _ | fuel
      · simp at enough
      · rw [Links.entries, path.1, Option.bind_some, walk, if_pos rfl]
  | cons node nodes =>
      have apart := (List.nodup_cons.mp ring.nodup).1
      rw [Links.entries, path.1.1, Option.bind_some]
      exact walk_path path.2 apart enough

end Links

end Alisl.Base
