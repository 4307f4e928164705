import HarnessFramework.ControlApi.Primitives
import HarnessFramework.Library.Peeling

/-!
# The order of a graph

`topologicalOrder` of `apps/control-api/src/authoring.ts`, on the ids of the nodes and the ends of the
edges, and the check that reads it. The loop peels the graph of the resolved edges: a count is the number
of edges from nodes that are not in the order yet, and the queue holds the other nodes without any.

## Main definitions

* `Links` — the maps of counts and of targets
* `topologicalOrder` — the loop, which returns nothing when it runs out of fuel
* `Resolved` — the edges between nodes
* `graphCycle` — the check of the editor

## Main results

* `foldl_release` — what a node that is taken does to the counts and the queue
* `topologicalOrder_order` — the loop ends, with an order that holds all nodes exactly if there is no
  cycle
* `graphCycle_eq_nil` — the check complains exactly of cycles
-/

namespace HarnessFramework

namespace ControlApi

/-! ## The function -/

/-- The maps of counts and of targets. -/
structure Links where
  incoming : String → Option ℤ
  outgoing : String → Option (List String)

/-- An edge is counted, unless one of its ends is no node. -/
def Links.add (links : Links) (edge : String × String) : Links :=
  if (links.incoming edge.2).isNone ∨ (links.outgoing edge.1).isNone then links
  else
    { incoming := Function.update links.incoming edge.2 (some ((links.incoming edge.2).getD 0 + 1))
      outgoing := Function.update links.outgoing edge.1
        ((links.outgoing edge.1).map fun targets => targets ++ [edge.2]) }

/-- The maps before any edge is counted. -/
def Links.empty (nodes : List String) : Links where
  incoming id := if id ∈ nodes then some 0 else none
  outgoing id := if id ∈ nodes then some [] else none

/-- The maps of a graph. -/
def linksOf (nodes : List String) (edges : List (String × String)) : Links :=
  edges.foldl Links.add (.empty nodes)

/-- A target of the node that was taken has an edge less, and is queued when that was the last one. -/
def release (state : (String → Option ℤ) × List String) (target : String) :
    (String → Option ℤ) × List String :=
  let incoming := Function.update state.1 target (some ((state.1 target).getD 1 - 1))
  if incoming target = some 0 then (incoming, state.2 ++ [target]) else (incoming, state.2)

/-- The loop, which takes a node off the queue each time. -/
def orderLoop (outgoing : String → Option (List String)) :
    ℕ → (String → Option ℤ) → List String → List String → Option (List String)
  | _, _, [], order => some order
  | 0, _, _ :: _, _ => none
  | fuel + 1, incoming, id :: queue, order =>
    if id = "" then some order
    else
      let released := ((outgoing id).getD []).foldl release (incoming, queue)
      orderLoop outgoing fuel released.1 released.2 (order ++ [id])

/-- `topologicalOrder`. -/
def topologicalOrder (fuel : ℕ) (nodes : List String) (edges : List (String × String)) :
    Option (List String) :=
  let links := linksOf nodes edges
  orderLoop links.outgoing fuel links.incoming
    (nodes.filter fun id => links.incoming id = some 0) []

/-- The check of `analyzeAuthoringSources` on the order. -/
def graphCycle (nodes order : List String) : List AuthoringDiagnostic :=
  if 0 < nodes.length ∧ order.length ≠ nodes.length then
    [diagnostic "author.graph_cycle" "workflow.spec.edges" "The executable graph must be acyclic."]
  else []

/-! ## The maps -/

/-- The edges between nodes. -/
def Resolved (nodes : List String) (edges : List (String × String)) : List (String × String) :=
  edges.filter fun edge => edge.1 ∈ nodes ∧ edge.2 ∈ nodes

section

variable {nodes : List String} {edges : List (String × String)}

theorem mem_resolved {edge : String × String} :
    edge ∈ Resolved nodes edges ↔ edge ∈ edges ∧ edge.1 ∈ nodes ∧ edge.2 ∈ nodes := by
  rw [Resolved, List.mem_filter, decide_eq_true_eq]

/-- The targets of the edges out of a node. -/
def targetsOf (nodes : List String) (edges : List (String × String)) (id : String) : List String :=
  ((Resolved nodes edges).filter fun edge => edge.1 = id).map Prod.snd

/-- Another edge between nodes. -/
theorem resolved_concat (edge : String × String) :
    Resolved nodes (edges ++ [edge]) = Resolved nodes edges ++
      if edge.1 ∈ nodes ∧ edge.2 ∈ nodes then [edge] else [] := by
  rw [Resolved, List.filter_append, ← Resolved, List.filter_singleton]
  by_cases h : edge.1 ∈ nodes ∧ edge.2 ∈ nodes <;> simp [h]

/-- **What the maps hold.** -/
theorem linksOf_eq (nodes : List String) (edges : List (String × String)) :
    (∀ id, (linksOf nodes edges).incoming id =
      if id ∈ nodes then some (remaining (Resolved nodes edges) [] id : ℤ) else none) ∧
    ∀ id, (linksOf nodes edges).outgoing id =
      if id ∈ nodes then some (targetsOf nodes edges id) else none := by
  induction edges using List.reverseRecOn with
  | nil => exact ⟨fun id => rfl, fun id => rfl⟩
  | append_singleton edges edge ih =>
    obtain ⟨hincoming, houtgoing⟩ := ih
    have hlinks : linksOf nodes (edges ++ [edge]) = (linksOf nodes edges).add edge := by
      rw [linksOf, List.foldl_append, ← linksOf]
      rfl
    have hskipped : (((linksOf nodes edges).incoming edge.2).isNone ∨
        ((linksOf nodes edges).outgoing edge.1).isNone) ↔ ¬ (edge.1 ∈ nodes ∧ edge.2 ∈ nodes) := by
      rw [hincoming, houtgoing]
      by_cases hsource : edge.1 ∈ nodes <;> by_cases htarget : edge.2 ∈ nodes <;>
        simp [hsource, htarget]
    rw [hlinks, Links.add, if_congr hskipped rfl rfl]
    by_cases hresolved : edge.1 ∈ nodes ∧ edge.2 ∈ nodes
    · rw [if_neg (not_not.mpr hresolved)]
      have hmore : Resolved nodes (edges ++ [edge]) = Resolved nodes edges ++ [edge] := by
        rw [resolved_concat, if_pos hresolved]
      refine ⟨fun id => ?_, fun id => ?_⟩
      · have hremaining : remaining (Resolved nodes edges ++ [edge]) [] id =
            remaining (Resolved nodes edges) [] id + if edge.2 = id then 1 else 0 := by
          rw [remaining, List.countP_append, List.countP_singleton, ← remaining]
          simp
        rw [hmore, hremaining]
        dsimp only
        by_cases hid : id = edge.2
        · subst hid
          rw [Function.update_self, hincoming, if_pos hresolved.2, if_pos rfl, if_pos hresolved.2]
          rfl
        · rw [Function.update_of_ne hid, hincoming, if_neg (Ne.symm hid), Nat.add_zero]
      · have htargets : targetsOf nodes (edges ++ [edge]) id =
            targetsOf nodes edges id ++ if edge.1 = id then [edge.2] else [] := by
          rw [targetsOf, hmore, List.filter_append, List.map_append, ← targetsOf, List.filter_singleton]
          by_cases hid : edge.1 = id <;> simp [hid]
        rw [htargets]
        dsimp only
        by_cases hid : id = edge.1
        · subst hid
          rw [Function.update_self, houtgoing, if_pos hresolved.1, if_pos rfl, if_pos hresolved.1]
          rfl
        · rw [Function.update_of_ne hid, houtgoing, if_neg (Ne.symm hid), List.append_nil]
    · rw [if_pos hresolved]
      have hsame : Resolved nodes (edges ++ [edge]) = Resolved nodes edges := by
        rw [resolved_concat, if_neg hresolved, List.append_nil]
      simp only [hsame, targetsOf]
      exact ⟨hincoming, houtgoing⟩

/-! ## The loop -/

/-- **What a node that is taken does to the counts and the queue.** If the counts are those that are left
besides the edges to be taken away, each target is queued once, when its last edge is taken away. -/
theorem foldl_release (left : String → ℕ) (targets : List String) (incoming : String → Option ℤ)
    (queue : List String) (hcounts : ∀ id ∈ targets, incoming id = some (left id + targets.count id : ℤ)) :
    ∃ added : List String, added.Nodup ∧ (∀ id, id ∈ added ↔ id ∈ targets ∧ left id = 0) ∧
      (targets.foldl release (incoming, queue)).2 = queue ++ added ∧
      ∀ id, (targets.foldl release (incoming, queue)).1 id =
        if id ∈ targets then some (left id : ℤ) else incoming id := by
  induction targets generalizing incoming queue with
  | nil =>
    refine ⟨[], List.nodup_nil, fun id => ?_, (List.append_nil _).symm, fun id => ?_⟩
    · exact iff_of_false List.not_mem_nil fun h => List.not_mem_nil h.1
    · exact (if_neg List.not_mem_nil).symm
  | cons target targets ih =>
    have hcount : incoming target = some (left target + targets.count target + 1 : ℤ) := by
      rw [hcounts target List.mem_cons_self, List.count_cons_self]
      push_cast
      ring_nf
    set incoming' := Function.update incoming target
      (some ((incoming target).getD 1 - 1)) with hincoming'
    have htarget : incoming' target = some (left target + targets.count target : ℤ) := by
      rw [hincoming', Function.update_self, hcount, Option.getD_some, add_sub_cancel_right]
    have hother : ∀ id, id ≠ target → incoming' id = incoming id := fun id hid =>
      Function.update_of_ne hid _ _
    have hrest : ∀ id ∈ targets, incoming' id = some (left id + targets.count id : ℤ) := by
      intro id hid
      by_cases heq : id = target
      · rw [heq, htarget]
      · rw [hother id heq, hcounts id (List.mem_cons_of_mem _ hid),
          List.count_cons_of_ne (Ne.symm heq)]
    have hlast : incoming' target = some 0 ↔ target ∉ targets ∧ left target = 0 := by
      rw [htarget, Option.some_inj, ← List.count_eq_zero]
      omega
    have hcounted : ∀ id, (if id ∈ targets then some (left id : ℤ) else incoming' id) =
        if id ∈ target :: targets then some (left id : ℤ) else incoming id := by
      intro id
      by_cases hid : id ∈ targets
      · rw [if_pos hid, if_pos (List.mem_cons_of_mem _ hid)]
      · rw [if_neg hid]
        by_cases heq : id = target
        · subst heq
          rw [if_pos List.mem_cons_self, htarget, List.count_eq_zero.mpr hid]
          simp
        · rw [hother id heq, if_neg fun h => (List.mem_cons.mp h).elim heq hid]
    rw [List.foldl_cons, release, ← hincoming']
    by_cases hqueued : target ∉ targets ∧ left target = 0
    · obtain ⟨added, hnodup, hmem, hqueue, hafter⟩ := ih incoming' (queue ++ [target]) hrest
      rw [if_pos (hlast.mpr hqueued)]
      refine ⟨target :: added, ?_, fun id => ?_, ?_, fun id => (hafter id).trans (hcounted id)⟩
      · exact List.nodup_cons.mpr ⟨fun h => hqueued.1 ((hmem target).mp h).1, hnodup⟩
      · rw [List.mem_cons, hmem, List.mem_cons]
        constructor
        · rintro (rfl | ⟨hid, hzero⟩)
          · exact ⟨.inl rfl, hqueued.2⟩
          · exact ⟨.inr hid, hzero⟩
        · rintro ⟨rfl | hid, hzero⟩
          · exact .inl rfl
          · exact .inr ⟨hid, hzero⟩
      · rw [hqueue, List.append_assoc, List.singleton_append]
    · obtain ⟨added, hnodup, hmem, hqueue, hafter⟩ := ih incoming' queue hrest
      rw [if_neg (mt hlast.mp hqueued)]
      refine ⟨added, hnodup, fun id => ?_, hqueue, fun id => (hafter id).trans (hcounted id)⟩
      rw [hmem, List.mem_cons]
      refine ⟨fun ⟨hid, hzero⟩ => ⟨.inr hid, hzero⟩, ?_⟩
      rintro ⟨rfl | hid, hzero⟩
      · exact ⟨not_not.mp fun hnot => hqueued ⟨hnot, hzero⟩, hzero⟩
      · exact ⟨hid, hzero⟩

/-- More fuel changes nothing. -/
theorem orderLoop_mono {outgoing : String → Option (List String)} {fuel fuel' : ℕ}
    {incoming : String → Option ℤ} {queue order result : List String} (hle : fuel ≤ fuel')
    (h : orderLoop outgoing fuel incoming queue order = some result) :
    orderLoop outgoing fuel' incoming queue order = some result := by
  induction fuel generalizing fuel' incoming queue order with
  | zero =>
    cases queue with
    | nil => cases fuel' <;> exact h
    | cons id queue => cases h
  | succ fuel ih =>
    cases queue with
    | nil => cases fuel' <;> exact h
    | cons id queue =>
      obtain ⟨fuel', rfl⟩ := Nat.exists_eq_add_of_lt (Nat.lt_of_succ_le hle)
      rw [orderLoop] at h ⊢
      split at h
      · next hempty => rw [if_pos hempty]; exact h
      · next hempty => rw [if_neg hempty]; exact ih (by omega) h

/-- **The loop peels the graph**, and ends when nothing is queued. -/
theorem orderLoop_peels (hempty : "" ∉ nodes) {fuel : ℕ} {incoming : String → Option ℤ}
    {queue order : List String} (hpeeling : Peeling nodes (Resolved nodes edges) order queue)
    (hincoming : ∀ id ∈ nodes, incoming id = some (remaining (Resolved nodes edges) order id : ℤ))
    (hfuel : nodes.length ≤ fuel + order.length) :
    ∃ result, orderLoop (linksOf nodes edges).outgoing fuel incoming queue order = some result ∧
      Peeling nodes (Resolved nodes edges) result [] := by
  induction fuel generalizing incoming queue order with
  | zero =>
    have hlength := hpeeling.length_le
    cases queue with
    | nil => exact ⟨order, rfl, hpeeling⟩
    | cons id queue =>
      rw [List.length_cons] at hlength
      omega
  | succ fuel ih =>
    cases queue with
    | nil => exact ⟨order, rfl, hpeeling⟩
    | cons id queue =>
      have hid := (hpeeling.free id).mp (List.mem_append_right _ List.mem_cons_self)
      have hnot : id ∉ order := fun hmem =>
        (List.nodup_append.mp hpeeling.nodup).2.2 id hmem id List.mem_cons_self rfl
      have htargets : ((linksOf nodes edges).outgoing id).getD [] = targetsOf nodes edges id := by
        rw [(linksOf_eq nodes edges).2, if_pos hid.1, Option.getD_some]
      have hmem : ∀ w, w ∈ targetsOf nodes edges id ↔ (id, w) ∈ Resolved nodes edges := by
        intro w
        rw [targetsOf, List.mem_map]
        constructor
        · rintro ⟨⟨u, w⟩, he, rfl⟩
          obtain ⟨he, hsource⟩ := List.mem_filter.mp he
          exact of_decide_eq_true hsource ▸ he
        · exact fun he => ⟨(id, w), List.mem_filter.mpr ⟨he, decide_eq_true rfl⟩, rfl⟩
      have hnodes : ∀ w ∈ targetsOf nodes edges id, w ∈ nodes := fun w hw =>
        (mem_resolved.mp ((hmem w).mp hw)).2.2
      have hsplit : ∀ w, remaining (Resolved nodes edges) order w =
          remaining (Resolved nodes edges) (order ++ [id]) w + (targetsOf nodes edges id).count w := by
        intro w
        rw [remaining_concat hnot, targetsOf, List.count_eq_countP, List.countP_map]
        rfl
      obtain ⟨added, hnodup, hadded, hqueue, hafter⟩ :=
        foldl_release (remaining (Resolved nodes edges) (order ++ [id]))
          (targetsOf nodes edges id) incoming queue fun w hw => by
            rw [hincoming w (hnodes w hw), hsplit w]
            push_cast
            rfl
      have hpeeled := hpeeling.peel hnodup
        (fun w => by rw [hadded, hmem]) fun e he => (mem_resolved.mp he).2.2
      rw [orderLoop, if_neg fun h : id = "" => hempty (h ▸ hid.1), htargets]
      dsimp only
      rw [hqueue]
      refine ih hpeeled (fun w hw => ?_) (by rw [List.length_append, List.length_singleton]; omega)
      rw [hafter]
      split
      · rfl
      · next hno => rw [hincoming w hw, hsplit w, List.count_eq_zero.mpr hno, Nat.add_zero]

/-- The loop ends when the graph is peeled. -/
theorem exists_peeling (hnodup : nodes.Nodup) (hempty : "" ∉ nodes) (edges : List (String × String)) :
    ∃ order, (∀ fuel, nodes.length ≤ fuel → topologicalOrder fuel nodes edges = some order) ∧
      Peeling nodes (Resolved nodes edges) order [] := by
  have hstart : (nodes.filter fun id => (linksOf nodes edges).incoming id = some 0) =
      nodes.filter fun id => remaining (Resolved nodes edges) [] id = 0 := by
    refine List.filter_congr fun id hid => decide_eq_decide.mpr ?_
    rw [(linksOf_eq nodes edges).1, if_pos hid, Option.some_inj, Nat.cast_eq_zero]
  obtain ⟨order, hloop, hpeeling⟩ := orderLoop_peels hempty (Peeling.start hnodup)
    (fun id hid => ((linksOf_eq nodes edges).1 id).trans (if_pos hid)) (Nat.le_add_right nodes.length 0)
  refine ⟨order, fun fuel hfuel => ?_, hpeeling⟩
  rw [topologicalOrder, hstart]
  exact orderLoop_mono hfuel hloop

/-- **The check complains exactly of cycles.** -/
theorem graphCycle_eq_nil (hnodup : nodes.Nodup) (hempty : "" ∉ nodes) {fuel : ℕ} {order : List String}
    (h : topologicalOrder fuel nodes edges = some order) :
    graphCycle nodes order = [] ↔ Acyclic fun x y => (x, y) ∈ Resolved nodes edges := by
  obtain ⟨peeled, hloop, hpeeling⟩ := exists_peeling hnodup hempty edges
  obtain rfl : order = peeled := by
    have hmore := orderLoop_mono (Nat.le_add_right fuel nodes.length) h
    exact Option.some_inj.mp (hmore.symm.trans (hloop _ (Nat.le_add_left _ _)))
  rw [← hpeeling.forall_mem_iff fun e he => (mem_resolved.mp he).2, ← hpeeling.length_eq_iff hnodup,
    graphCycle, ite_eq_right_iff, imp_iff_not (List.cons_ne_nil _ _)]
  have hlength := hpeeling.length_le
  rw [List.length_nil] at hlength
  omega

/-- **The order of a graph**: the loop ends with nodes that are all different, in an order that goes along
the resolved edges, and with all nodes exactly if the resolved edges have no cycle. -/
theorem topologicalOrder_order (hnodup : nodes.Nodup) (hempty : "" ∉ nodes)
    (edges : List (String × String)) :
    ∃ order, (∀ fuel, nodes.length ≤ fuel → topologicalOrder fuel nodes edges = some order) ∧
      order.Nodup ∧ (∀ id ∈ order, id ∈ nodes) ∧
      (∀ edge ∈ Resolved nodes edges, edge.2 ∈ order →
        order.idxOf edge.1 < order.idxOf edge.2) ∧
      ((∀ id ∈ nodes, id ∈ order) ↔ Acyclic fun x y => (x, y) ∈ Resolved nodes edges) := by
  obtain ⟨order, hloop, hpeeling⟩ := exists_peeling hnodup hempty edges
  refine ⟨order, hloop, ?_, fun id hid => ?_, ?_, ?_⟩
  · simpa using hpeeling.nodup
  · exact ((hpeeling.free id).mp (List.mem_append_left _ hid)).1
  · exact fun edge hedge htarget => hpeeling.idxOf_lt hedge htarget
  · exact hpeeling.forall_mem_iff fun e he => (mem_resolved.mp he).2

end

/-- A graph with an edge that is there twice, a loop and an edge to no node. -/
theorem topologicalOrder_order_sample :
    let nodes := ["c", "a", "b"]
    let edges := [("a", "b"), ("a", "b"), ("c", "c"), ("b", "d")]
    ∃ order, (∀ fuel, nodes.length ≤ fuel → topologicalOrder fuel nodes edges = some order) ∧
      order.Nodup ∧ (∀ id ∈ order, id ∈ nodes) ∧
      (∀ edge ∈ Resolved nodes edges, edge.2 ∈ order →
        order.idxOf edge.1 < order.idxOf edge.2) ∧
      ((∀ id ∈ nodes, id ∈ order) ↔ Acyclic fun x y => (x, y) ∈ Resolved nodes edges) :=
  topologicalOrder_order (by decide) (by decide) _

example : topologicalOrder 3 ["c", "a", "b"] [("a", "b"), ("a", "b"), ("c", "c"), ("b", "d")] =
    some ["a", "b"] := by decide

end ControlApi

end HarnessFramework
