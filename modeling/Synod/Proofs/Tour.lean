import Synod.Proofs.Handler
import Synod.Proofs.Reports

/-! The tour of a tick: the visits that it makes, in their order. A node that runs is handed what
waited for it and what was sent to it so far in the tick; what is sent to it from then on waits for
the next tick. A node that does not run loses nothing. No two nodes share a name, as in every run
(`nodup_ids_run`). -/

namespace Synod

variable {V σ : Type}

/-! ## What is sent on a tour -/

/-- The messages to a node that are sent in visits, in their order. -/
def Visit.sentTo (h : Handler V) (id : NodeId) (visits : List (Visit V)) : List (Message V) :=
  (visits.flatMap (Visit.sent h)).filter (·.receiver = id)

namespace Visit

variable (h : Handler V) (id : NodeId)

@[simp] theorem sentTo_nil : sentTo h id [] = [] := rfl

theorem sentTo_cons (v : Visit V) (visits : List (Visit V)) :
    sentTo h id (v :: visits) = (v.sent h).filter (·.receiver = id) ++ sentTo h id visits := by
  simp [sentTo]

/-- What a visit does between two moments, `c` before the tour and `c'` after it, with the visits
before and after it. -/
structure Met (v : Visit V) (c c' : Cluster V σ) (before after : List (Visit V)) : Prop where
  /-- The node is found as it was before the tour, and left as its batch leaves it. -/
  found : c.node? v.node.id = some v.node
  left : c'.node? v.node.id = some (v.result h)
  /-- A node that runs is handed all that waits for it. -/
  batch_of_runs : v.node.runs = true →
    v.batch.Perm (c.bus.inbox v.node.id ++ sentTo h v.node.id before)
  /-- Only what is sent to it from then on waits after the tour. -/
  waiting_of_runs : v.node.runs = true →
    c'.bus.inbox v.node.id = sentTo h v.node.id (v :: after)
  /-- A node that does not run is handed nothing. -/
  batch_of_idle : v.node.runs = false → v.batch = []
  /-- All that waited for it still waits, with what was sent to it on the tour. -/
  waiting_of_idle : v.node.runs = false →
    c'.bus.inbox v.node.id = c.bus.inbox v.node.id ++ sentTo h v.node.id (before ++ v :: after)

variable {h id}

theorem flatMap_batch_filter {visits : List (Visit V)}
    (hempty : ∀ v ∈ visits, v.stopped h = true → v.batch = []) :
    (visits.filter fun v => !v.stopped h).flatMap Visit.batch = visits.flatMap Visit.batch := by
  induction visits with
  | nil => rfl
  | cons v visits ih =>
    obtain ⟨hv, hrest⟩ := List.forall_mem_cons.mp hempty
    cases hstopped : v.stopped h with
    | true => simp [hstopped, hv hstopped, ih hrest]
    | false => simp [hstopped, ih hrest]

theorem Met.result_of_idle {v : Visit V} {c c' : Cluster V σ} {before after : List (Visit V)}
    (hv : v.Met h c c' before after) (hidle : v.node.runs = false) : v.result h = v.node := by
  obtain ⟨n, batch⟩ := v
  obtain rfl : batch = [] := hv.batch_of_idle hidle
  exact result_nil h n

end Visit

namespace Cluster

theorem mem_ids_iff {c : Cluster V σ} {id : NodeId} : id ∈ c.ids ↔ ∃ n, c.node? id = some n := by
  refine ⟨fun hid => ?_, fun ⟨n, hn⟩ => mem_ids_of_node? hn⟩
  obtain ⟨n, hn, rfl⟩ := List.mem_map.mp hid
  exact Option.isSome_iff_exists.mp (List.find?_isSome.mpr ⟨n, hn, by simp⟩)

variable [Shuffler σ]

/-- The visits to nodes in turn. -/
def visitsBy (h : Handler V) (c : Cluster V σ) : List NodeId → List (Visit V)
  | [] => []
  | id :: ids => ((c.node? id).map c.meet).toList ++ visitsBy h (c.visitBy h id).1 ids

/-- The visits of a tick. -/
def tourBy (h : Handler V) (c : Cluster V σ) : List (Visit V) :=
  let (ids, order) := Shuffler.shuffle c.order c.ids
  visitsBy h { c with order, ticks := c.ticks + 1 } ids

variable {h : Handler V} {c : Cluster V σ} {id : NodeId} {n : Node V}

theorem visitsBy_cons (hn : c.node? id = some n) (ids : List NodeId) :
    c.visitsBy h (id :: ids) = c.meet n :: (c.visitBy h id).1.visitsBy h ids := by
  simp [visitsBy, hn]

theorem visitBy_of_absent (hn : c.node? id = none) : c.visitBy h id = (c, some 0) := by
  simp [visitBy, hn]

theorem visitAllBy_cons_fst (ids : List NodeId) :
    (c.visitAllBy h (id :: ids)).1 = ((c.visitBy h id).1.visitAllBy h ids).1 := by
  rw [visitAllBy]
  rcases c.visitBy h id with ⟨c', _ | handled⟩ <;> rfl

theorem frame_visitAllBy (h : Handler V) (c : Cluster V σ) (ids : List NodeId) :
    (c.visitAllBy h ids).1.ids = c.ids ∧ (c.visitAllBy h ids).1.ticks = c.ticks := by
  induction ids generalizing c with
  | nil => exact ⟨rfl, rfl⟩
  | cons id ids ih =>
    rw [visitAllBy_cons_fst]
    simpa using ih (c.visitBy h id).1

/-! ## The account of a tour -/

/-- Of all that waits and is sent, each message is handed over once or waits at the end. -/
theorem accounted_visitAllBy (h : Handler V) (c : Cluster V σ) (ids : List NodeId) :
    ((c.visitsBy h ids).flatMap Visit.batch ++ (c.visitAllBy h ids).1.bus.pending).Perm
      (c.bus.pending ++ (c.visitsBy h ids).flatMap (Visit.sent h)) := by
  induction ids generalizing c with
  | nil => simp [visitsBy, visitAllBy]
  | cons id ids ih =>
    rw [visitAllBy_cons_fst]
    cases hn : c.node? id with
    | none => simpa [visitsBy, hn, visitBy_of_absent hn] using ih c
    | some n =>
      rw [visitsBy_cons hn, List.flatMap_cons, List.flatMap_cons, List.append_assoc]
      have hrest := (ih (c.visitBy h id).1).append_left (c.meet n).batch
      refine hrest.trans ?_
      rw [← List.append_assoc, ← List.append_assoc]
      exact (accounted_visitBy h hn).append_right _

/-- The report counts the batches of the visits after which the node is not stopped, and lists the
others. -/
theorem report_visitAllBy (h : Handler V) (c : Cluster V σ) (ids : List NodeId) :
    (c.visitAllBy h ids).2 =
      ((((c.visitsBy h ids).filter fun v => !v.stopped h).flatMap Visit.batch).length,
        ((c.visitsBy h ids).filter (Visit.stopped h)).map fun v => v.node.id) := by
  induction ids generalizing c with
  | nil => rfl
  | cons id ids ih =>
    cases hn : c.node? id with
    | none => simp [visitAllBy, visitsBy, hn, visitBy_of_absent hn, ih]
    | some n =>
      have hout := (visitBy_spec h hn).2.2
      have hid : (c.meet n).node.id = id := id_of_node? hn
      rw [visitsBy_cons hn]
      cases hstop : (c.meet n).stopped h <;> simp [visitAllBy, hout, hstop, hid, ih]

/-! ## Who is visited -/

theorem ids_visitsBy {ids : List NodeId} (hids : ∀ id ∈ ids, id ∈ c.ids) :
    ((c.visitsBy h ids).map fun v => v.node.id) = ids := by
  induction ids generalizing c with
  | nil => rfl
  | cons id ids ih =>
    obtain ⟨hid, hrest⟩ := List.forall_mem_cons.mp hids
    obtain ⟨n, hn⟩ := mem_ids_iff.mp hid
    rw [visitsBy_cons hn, List.map_cons, ih (by simpa using hrest)]
    exact congrArg (· :: ids) (id_of_node? hn)

/-- A node that is not visited stays as it is, and what is sent to it waits. -/
theorem unvisited {ids : List NodeId} (hids : ∀ id ∈ ids, id ∈ c.ids) (hid : id ∉ ids) :
    (c.visitAllBy h ids).1.node? id = c.node? id ∧
      (c.visitAllBy h ids).1.bus.inbox id =
        c.bus.inbox id ++ Visit.sentTo h id (c.visitsBy h ids) := by
  induction ids generalizing c with
  | nil => simp [visitAllBy, visitsBy]
  | cons visited ids ih =>
    obtain ⟨hvisited, hrest⟩ := List.forall_mem_cons.mp hids
    obtain ⟨hne, hid⟩ : id ≠ visited ∧ id ∉ ids := by simpa using hid
    obtain ⟨n, hn⟩ := mem_ids_iff.mp hvisited
    obtain ⟨hnode, hinbox⟩ := ih (c := (c.visitBy h visited).1) (by simpa using hrest) hid
    rw [visitAllBy_cons_fst, visitsBy_cons hn, Visit.sentTo_cons, ← List.append_assoc,
      ← inbox_visitBy_of_ne h hn hne]
    refine ⟨hnode.trans ?_, hinbox⟩
    rw [(visitBy_spec h hn).1, Function.update_of_ne hne]

/-! ## What the visits do -/

theorem met_first {ids : List NodeId} (hn : c.node? id = some n) (hids : ∀ id ∈ ids, id ∈ c.ids)
    (hid : id ∉ ids) :
    (c.meet n).Met h c (c.visitAllBy h (id :: ids)).1 []
      ((c.visitBy h id).1.visitsBy h ids) := by
  obtain rfl : n.id = id := id_of_node? hn
  obtain ⟨hnode, hinbox⟩ := unvisited (h := h) (c := (c.visitBy h n.id).1) (by simpa using hids) hid
  have hself := inbox_visitBy_self h hn
  rw [visitAllBy_cons_fst]
  constructor
  · exact hn
  · exact hnode.trans (by rw [(visitBy_spec h hn).1]; exact Function.update_self ..)
  · intro (hruns : n.runs = true)
    simpa [meet, hruns] using c.bus.drain_fst_perm n.id
  · intro (hruns : n.runs = true)
    rw [Visit.sentTo_cons]
    exact hinbox.trans (by rw [hself, hruns]; rfl)
  · intro (hidle : n.runs = false)
    simp [meet, hidle]
  · intro (hidle : n.runs = false)
    rw [List.nil_append, Visit.sentTo_cons, ← List.append_assoc]
    exact hinbox.trans (by rw [hself, hidle]; rfl)

/-- A visit that comes later finds its node untouched by the first. -/
theorem met_later {v : Visit V} {c' : Cluster V σ} {before after : List (Visit V)}
    (hn : c.node? id = some n) (hne : v.node.id ≠ id)
    (hv : v.Met h (c.visitBy h id).1 c' before after) :
    v.Met h c c' (c.meet n :: before) after := by
  have hinbox := inbox_visitBy_of_ne h hn hne
  constructor
  · rw [← hv.found, (visitBy_spec h hn).1, Function.update_of_ne hne]
  · exact hv.left
  · intro hruns
    have hbatch := hv.batch_of_runs hruns
    rwa [hinbox, List.append_assoc, ← Visit.sentTo_cons] at hbatch
  · exact hv.waiting_of_runs
  · exact hv.batch_of_idle
  · intro hidle
    have hwaiting := hv.waiting_of_idle hidle
    rwa [hinbox, List.append_assoc, ← Visit.sentTo_cons] at hwaiting

theorem met_visitsBy {ids : List NodeId} (hids : ∀ id ∈ ids, id ∈ c.ids) (hnodup : ids.Nodup)
    {before after : List (Visit V)} {v : Visit V}
    (htour : c.visitsBy h ids = before ++ v :: after) :
    v.Met h c (c.visitAllBy h ids).1 before after := by
  induction ids generalizing c before with
  | nil => simp [visitsBy] at htour
  | cons first ids ih =>
    obtain ⟨hfirst, hrest⟩ := List.forall_mem_cons.mp hids
    obtain ⟨hnew, hnodup⟩ := List.nodup_cons.mp hnodup
    obtain ⟨n, hn⟩ := mem_ids_iff.mp hfirst
    rw [visitsBy_cons hn] at htour
    cases before with
    | nil =>
      obtain ⟨rfl, rfl⟩ := List.cons.inj htour
      exact met_first hn hrest hnew
    | cons w before =>
      obtain ⟨rfl, hlater⟩ := List.cons.inj htour
      have hrest : ∀ id ∈ ids, id ∈ (c.visitBy h first).1.ids := by simpa using hrest
      have hv : v.node.id ∈ ids := by
        rw [← ids_visitsBy (h := h) hrest, hlater]
        simp
      have hne : v.node.id ≠ first := fun heq => hnew (heq ▸ hv)
      rw [visitAllBy_cons_fst]
      exact met_later hn hne (ih hrest hnodup hlater)

/-! ## Ticks -/

/-- What a tick does, said of what it comes to. -/
structure TickSpec (h : Handler V) (c : Cluster V σ) (out : Cluster V σ × TickReport) : Prop where
  /-- Every node is visited once. -/
  ids_tour : ((c.tourBy h).map fun v => v.node.id).Perm c.ids
  met : ∀ {before v after}, c.tourBy h = before ++ v :: after → v.Met h c out.1 before after
  /-- What is sent to names without a node waits. -/
  inbox_absent : ∀ id ∉ c.ids,
    out.1.bus.inbox id = c.bus.inbox id ++ Visit.sentTo h id (c.tourBy h)
  /-- Of all that waits before the tick or is sent in it, each message is handed over once or waits
  afterwards. -/
  accounted : ((c.tourBy h).flatMap Visit.batch ++ out.1.bus.pending).Perm
    (c.bus.pending ++ (c.tourBy h).flatMap (Visit.sent h))
  /-- The nodes that are stopped after their visits, in the order of the visits. -/
  faulted_eq : out.2.faulted = ((c.tourBy h).filter (Visit.stopped h)).map fun v => v.node.id
  /-- Only the batches of the others count. -/
  handled_eq : out.2.handled =
    (((c.tourBy h).filter fun v => !v.stopped h).flatMap Visit.batch).length
  tick_eq : out.2.tick = c.ticks + 1
  ticks_eq : out.1.ticks = c.ticks + 1
  ids_eq : out.1.ids = c.ids

theorem tickBy_spec (h : Handler V) {c : Cluster V σ} (hids : c.ids.Nodup) :
    TickSpec h c (c.tickBy h) := by
  have hperm : (Shuffler.shuffle c.order c.ids).1.Perm c.ids := Shuffler.shuffle_perm _ _
  let start : Cluster V σ :=
    { c with order := (Shuffler.shuffle c.order c.ids).2, ticks := c.ticks + 1 }
  have hmem : ∀ id ∈ (Shuffler.shuffle c.order c.ids).1, id ∈ start.ids :=
    fun id hid => hperm.mem_iff.mp hid
  have hreport := report_visitAllBy h start (Shuffler.shuffle c.order c.ids).1
  refine ⟨?_, ?_, ?_, ?_, ?_, ?_, ?_, ?_, ?_⟩
  · have hlisted := ids_visitsBy (h := h) hmem
    exact hlisted ▸ hperm
  · intro before v after htour
    have hv := met_visitsBy hmem (hperm.nodup_iff.mpr hids) htour
    exact ⟨hv.found, hv.left, hv.batch_of_runs, hv.waiting_of_runs, hv.batch_of_idle,
      hv.waiting_of_idle⟩
  · intro id hid
    exact (unvisited hmem fun hvisited => hid (hmem id hvisited)).2
  · exact accounted_visitAllBy h start _
  · exact congrArg Prod.snd hreport
  · exact congrArg Prod.fst hreport
  · exact (frame_visitAllBy h start _).2
  · exact (frame_visitAllBy h start _).2
  · exact (frame_visitAllBy h start _).1

namespace TickSpec

variable {out : Cluster V σ × TickReport} (spec : TickSpec h c out)
include spec

theorem exists_met {v : Visit V} (hv : v ∈ c.tourBy h) : ∃ before after,
    c.tourBy h = before ++ v :: after ∧ v.Met h c out.1 before after := by
  obtain ⟨before, after, htour⟩ := List.append_of_mem hv
  exact ⟨before, after, htour, spec.met htour⟩

theorem exists_visit (hn : c.node? id = some n) : ∃ v ∈ c.tourBy h, v.node = n := by
  have hid : id ∈ (c.tourBy h).map fun v => v.node.id :=
    spec.ids_tour.mem_iff.mpr (mem_ids_of_node? hn)
  obtain ⟨v, hv, rfl⟩ := List.mem_map.mp hid
  obtain ⟨before, after, -, hmet⟩ := spec.exists_met hv
  exact ⟨v, hv, Option.some.inj (hmet.found.symm.trans hn)⟩

/-- A message waits after a tick only where its receiver does not run, or where it was sent from the
visit to its receiver on. -/
theorem of_pending {m : Message V} (hm : m ∈ out.1.bus.pending) :
    c.node? m.receiver = none ∨ (∃ n, c.node? m.receiver = some n ∧ n.runs = false) ∨
      ∃ before v after, c.tourBy h = before ++ v :: after ∧ v.node.id = m.receiver ∧
        v.node.runs = true ∧ m ∈ (v :: after).flatMap (Visit.sent h) := by
  cases hn : c.node? m.receiver with
  | none => exact .inl rfl
  | some n =>
    refine .inr ?_
    cases hruns : n.runs with
    | false => exact .inl ⟨n, rfl, hruns⟩
    | true =>
      obtain ⟨v, hv, rfl⟩ := spec.exists_visit hn
      obtain ⟨before, after, htour, hmet⟩ := spec.exists_met hv
      have hid : v.node.id = m.receiver := id_of_node? hn
      have hinbox : m ∈ out.1.bus.inbox v.node.id := List.mem_filter.mpr ⟨hm, by simp [hid]⟩
      rw [hmet.waiting_of_runs hruns] at hinbox
      exact .inr ⟨before, v, after, htour, hid, hruns, List.mem_of_mem_filter hinbox⟩

/-- Where no fault happens in a tick, every message that is handed over counts as handled. -/
theorem handled_of_calm (hcalm : ∀ v ∈ c.tourBy h, (v.turn h).fault = none) :
    out.2.handled + out.1.bus.pendingCount =
      c.bus.pendingCount + ((c.tourBy h).flatMap (Visit.sent h)).length := by
  have hempty : ∀ v ∈ c.tourBy h, v.stopped h = true → v.batch = [] := by
    intro v hv hstopped
    obtain ⟨before, after, -, hmet⟩ := spec.exists_met hv
    apply hmet.batch_of_idle
    simpa [Visit.stopped, hcalm v hv, Node.runs] using fun _ => hstopped
  have hlength := spec.accounted.length_eq
  rw [List.length_append, List.length_append, ← Visit.flatMap_batch_filter hempty,
    ← spec.handled_eq] at hlength
  exact hlength

end TickSpec

/-! ## Every waiting message once -/

section

variable [Value V]

/-- The visits of a tick in which the nodes do what their roles do. -/
def tour (c : Cluster V σ) : List (Visit V) := c.tourBy .ofRoles

/-- A tick in which no fault happens visits every node once. A node that runs is handed, once each,
the messages that waited for it and those that were sent to it before its visit, and handles them
all. What is sent to it from then on waits, and so do all messages to a node that does not run,
which stays as it is. The report counts what was handled. -/
theorem tick_delivers (c : Cluster V σ) (hids : c.ids.Nodup)
    (hcalm : ∀ v ∈ c.tour, (v.node.handleAll v.batch).fault = none) :
    (c.tour.map fun v => v.node.id).Perm c.ids ∧
    (∀ before v after, c.tour = before ++ v :: after → c.node? v.node.id = some v.node ∧
      (v.node.runs = true →
        v.batch.Perm (c.bus.inbox v.node.id ++ Visit.sentTo .ofRoles v.node.id before) ∧
        c.tick.1.node? v.node.id = some (v.node.handleAll v.batch).node ∧
        c.tick.1.bus.inbox v.node.id = Visit.sentTo .ofRoles v.node.id (v :: after)) ∧
      (v.node.runs = false → v.batch = [] ∧ c.tick.1.node? v.node.id = some v.node ∧
        c.tick.1.bus.inbox v.node.id =
          c.bus.inbox v.node.id ++ Visit.sentTo .ofRoles v.node.id c.tour)) ∧
    (c.tour.flatMap Visit.batch ++ c.tick.1.bus.pending).Perm
      (c.bus.pending ++ c.tour.flatMap (Visit.sent .ofRoles)) ∧
    (∀ m ∈ c.tick.1.bus.pending,
      c.node? m.receiver = none ∨ (∃ n, c.node? m.receiver = some n ∧ n.runs = false) ∨
        ∃ before v after, c.tour = before ++ v :: after ∧ v.node.id = m.receiver ∧
          v.node.runs = true ∧ m ∈ (v :: after).flatMap (Visit.sent .ofRoles)) ∧
    c.tick.2.handled + c.tick.1.bus.pendingCount =
      c.bus.pendingCount + (c.tour.flatMap (Visit.sent .ofRoles)).length ∧
    c.tick.2.tick = c.ticks + 1 ∧ c.tick.1.ticks = c.ticks + 1 := by
  have spec := tickBy_spec .ofRoles hids
  rw [tickBy_ofRoles] at spec
  have hcalm : ∀ v ∈ c.tour, (v.turn .ofRoles).fault = none := by simpa [Visit.turn_ofRoles]
  refine ⟨spec.ids_tour, ?_, spec.accounted, fun m => spec.of_pending, spec.handled_of_calm hcalm,
    spec.tick_eq, spec.ticks_eq⟩
  intro before v after htour
  have hv := spec.met htour
  refine ⟨hv.found, fun hruns => ⟨hv.batch_of_runs hruns, ?_, hv.waiting_of_runs hruns⟩,
    fun hidle => ⟨hv.batch_of_idle hidle, ?_, ?_⟩⟩
  · have hresult := Visit.result_of_calm hruns (hcalm v (by simp [htour]))
    rw [hv.left, hresult, Visit.turn_ofRoles]
  · rw [hv.left, hv.result_of_idle hidle]
  · rw [hv.waiting_of_idle hidle, htour]

end

/-- A round of `P1` is under way. `A3` is down, a fault has stopped `P2`, and messages in its name
and to a name without a node came from outside. `P1` is visited between `A1` and `A2`. -/
def unsteady : Cluster String Script :=
  let c := ((ofTrio []).run [.propose ⟨"P1"⟩ none, .fail ⟨"A3"⟩]).injectFault ⟨"P2"⟩
  { (c.1.send ⟨⟨"P2"⟩, ⟨"A1"⟩, .prepare ⟨1, ⟨"P2"⟩⟩⟩).send ⟨⟨"P1"⟩, ⟨"X1"⟩, .prepare ⟨1, ⟨"P1"⟩⟩⟩
    with order := ⟨[[0, 4]]⟩ }

theorem tick_delivers_of_unsteady :
    (unsteady.tour.map fun v => (v.node.id, v.batch.length)) =
        [(⟨"A1"⟩, 2), (⟨"P1"⟩, 1), (⟨"A2"⟩, 1), (⟨"A3"⟩, 0), (⟨"L1"⟩, 0), (⟨"L2"⟩, 0),
          (⟨"P2"⟩, 0)] ∧
      (unsteady.tour.map fun v => v.node.id).Perm unsteady.ids ∧
      unsteady.tick.1.bus.pending.map Message.receiver =
        [⟨"A3"⟩, ⟨"X1"⟩, ⟨"P2"⟩, ⟨"P1"⟩] ∧
      (∃ before v after, unsteady.tour = before ++ v :: after ∧ v.node.id = ⟨"P1"⟩ ∧
        ⟨⟨"A2"⟩, ⟨"P1"⟩, .promise ⟨1, ⟨"P1"⟩⟩ none⟩ ∈
          (v :: after).flatMap (Visit.sent .ofRoles)) ∧
      unsteady.tick.2.handled = 4 ∧ unsteady.tick.2.tick = 1 := by
  obtain ⟨hvisited, -, -, hpending, hhandled, htick, -⟩ :=
    tick_delivers unsteady (by decide +kernel) (by decide +kernel)
  have hbefore : unsteady.bus.pendingCount = 5 := by decide +kernel
  have hsent : (unsteady.tour.flatMap (Visit.sent .ofRoles)).length = 3 := by decide +kernel
  have hafter : unsteady.tick.1.bus.pendingCount = 4 := by decide +kernel
  have hwaits : ⟨⟨"A2"⟩, ⟨"P1"⟩, .promise ⟨1, ⟨"P1"⟩⟩ none⟩ ∈ unsteady.tick.1.bus.pending := by
    decide +kernel
  have hruns : (unsteady.node? ⟨"P1"⟩).map Node.runs = some true := by decide +kernel
  refine ⟨by decide +kernel, hvisited, by decide +kernel, ?_, by omega, htick⟩
  rcases hpending _ hwaits with hnone | ⟨n, hn, hidle⟩ | ⟨before, v, after, htour, hv, -, hm⟩
  · simp [hnone] at hruns
  · simp [hn, hidle] at hruns
  · exact ⟨before, v, after, htour, hv, hm⟩

end Cluster

end Synod
