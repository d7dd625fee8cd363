import Synod.Proofs.Delivery

/-! The two phases of a lone round. While its leader gathers promises, nobody has voted; from then
on all ask and vote for one value. Each message that is handled brings its sender or its receiver
one step forward, or does nothing, and takes one unit of work. -/

namespace Synod

variable {V : Type}

namespace World

/-! ## Gathering promises -/

section

variable (s : Setup V) (vote : Vote V) (down : List NodeId)
  (others : NodeId → Option (Proposer V))

/-- The leader is gathering promises, of these senders so far. -/
structure Gathering (senders : List NodeId) (w : World V) : Prop where
  undisturbed : w.Undisturbed down
  acceptor : ∀ a ∈ s.acceptors, ∃ p : Pledge V,
    w.acceptor? a = some ⟨s.learners, p⟩ ∧ p.Unvoted vote
  learner : ∀ l ∈ s.learners, w.learner? l = some (.counting s vote [])
  leader : w.proposer? vote.ballot.proposer = some (.gathering s vote senders)
  other : ∀ id, id ≠ vote.ballot.proposer → w.proposer? id = others id
  nodup : senders.Nodup
  few : senders.length < quorumSize s.acceptors.length
  up : ∀ a ∈ senders, a ∈ s.acceptors ∧ a ∉ down
  flight : ∀ m ∈ w.flight, ∃ a ∈ s.acceptors,
    m = vote.prepareTo a ∨ a ∉ down ∧ m = vote.promiseOf a
  /-- Every acceptor is still asked, or its answer is on its way or counted. -/
  underway : ∀ a ∈ s.acceptors,
    vote.prepareTo a ∈ w.flight ∨ vote.promiseOf a ∈ w.flight ∨ a ∈ senders
  silent : ∀ m u, .sent m ∈ w.log → m.body ≠ .accept u

/-- A learner has decided, or hears of every vote that it has not counted yet. -/
def Hearing (w : World V) (l : NodeId) : Prop :=
  w.learner? l = some (.decided s vote) ∧ l ∉ down ∨
    ∃ voters : List NodeId, w.learner? l = some (.counting s vote voters) ∧ voters.Nodup ∧
      voters.length < quorumSize s.acceptors.length ∧ (l ∈ down → voters = []) ∧
      ∀ a ∈ s.acceptors, (vote.acceptTo a ∈ w.flight ∨ vote.learnOf a l ∈ w.flight) ∨ a ∈ voters

/-- The leader has asked for votes, and these acceptors have confirmed theirs so far. -/
structure Voting (acceptedBy : List NodeId) (w : World V) : Prop where
  undisturbed : w.Undisturbed down
  /-- An acceptor has voted or is still asked to, and may have a prepare before it in both cases. -/
  acceptor : ∀ a ∈ s.acceptors, ∃ p : Pledge V, w.acceptor? a = some ⟨s.learners, p⟩ ∧
    (p = ⟨some vote.ballot, some vote⟩ ∨ vote.acceptTo a ∈ w.flight ∧ p.Unvoted vote)
  learner : ∀ l ∈ s.learners, Hearing s vote down w l
  leader : w.proposer? vote.ballot.proposer = some (.voting s vote acceptedBy)
  other : ∀ id, id ≠ vote.ballot.proposer → w.proposer? id = others id
  nodup : acceptedBy.Nodup
  confirmed : ∀ a ∈ acceptedBy, a ∈ s.acceptors
  flight : ∀ m ∈ w.flight, m.OfRound s vote
  underway : ∀ a ∈ s.acceptors,
    vote.acceptTo a ∈ w.flight ∨ vote.acceptedOf a ∈ w.flight ∨ a ∈ acceptedBy

end

section

variable {s : Setup V} {vote : Vote V} {down : List NodeId}
  {others : NodeId → Option (Proposer V)} {w w' : World V} {n : Node V}
  {senders gathered acceptedBy : List NodeId}

theorem Gathering.prepare (hw : Gathering s vote down others senders w)
    (hn : w.node? n.id = some n) (hup : n.alive = true) (hmem : n.id ∈ s.acceptors) {p : Pledge V}
    (hr : n.role = .acceptor ⟨s.learners, p⟩) (hp : p.Unvoted vote)
    (h : w.Delivered n (vote.prepareTo n.id)
      (.acceptor ⟨s.learners, { p with promised := some vote.ballot }⟩) [vote.promiseOf n.id] w') :
    Gathering s vote down others senders w' := by
  obtain ⟨hacceptor, hlearner, hproposer⟩ := h.of_acceptor hn hr rfl
  refine ⟨h.undisturbed hn hw.undisturbed, ?acceptor, hlearner ▸ hw.learner, hproposer ▸ hw.leader,
    hproposer ▸ hw.other, hw.nodup, hw.few, hw.up, ?flight, ?underway, ?silent⟩
  case acceptor =>
    intro a ha
    rw [hacceptor]
    by_cases heq : a = n.id
    · subst heq
      exact ⟨_, Function.update_self .., hp.1, by simp [eq_comm]⟩
    · rw [Function.update_of_ne heq]
      exact hw.acceptor a ha
  case flight =>
    intro x hx
    rcases h.mem_or_sent hx with hold | hnew
    · exact hw.flight x hold
    · exact ⟨n.id, hmem, .inr ⟨(hw.undisturbed _ _ hn).2 hup, List.mem_singleton.mp hnew⟩⟩
  case underway =>
    intro a ha
    rcases hw.underway a ha with hask | hanswer | hsender
    · rcases h.mem_flight hask with heq | hask
      · obtain rfl : a = n.id := by simpa using heq
        exact .inr (.inl (h.mem_flight_of_sent (List.mem_singleton_self _)))
      · exact .inl hask
    · exact .inr (.inl ((h.mem_flight hanswer).resolve_left (by simp)))
    · exact .inr (.inr hsender)
  case silent =>
    intro x u hx
    rcases h.logged_or_sent hx with hold | hnew
    · exact hw.silent x u hold
    · rw [List.mem_singleton.mp hnew]
      simp

/-- The senders of promises stay different acceptors that are not down. -/
theorem Gathering.gather (hw : Gathering s vote down others senders w) {a : NodeId}
    (ha : a ∈ s.acceptors) (hup : a ∉ down) (hgathered : gathered = a :: senders.filter (· ≠ a)) :
    gathered.Nodup ∧ (∀ b ∈ gathered, b ∈ s.acceptors ∧ b ∉ down) ∧ senders ⊆ gathered := by
  subst hgathered
  refine ⟨List.nodup_cons.mpr ⟨by simp, hw.nodup.filter _⟩, ?_, ?_⟩
  · intro b hb
    rcases List.mem_cons.mp hb with rfl | hb
    · exact ⟨ha, hup⟩
    · exact hw.up b (List.mem_of_mem_filter hb)
  · intro b hb
    by_cases heq : b = a <;> simp [heq, hb]

theorem Gathering.promise (hw : Gathering s vote down others senders w) {a : NodeId}
    (ha : a ∈ s.acceptors) (hup : a ∉ down) (hgathered : gathered = a :: senders.filter (· ≠ a))
    (hfew : gathered.length < quorumSize s.acceptors.length) (hn : w.node? n.id = some n)
    (hid : n.id = vote.ballot.proposer) (hr : n.role = .proposer (.gathering s vote senders))
    (h : w.Delivered n (vote.promiseOf a) (.proposer (.gathering s vote gathered)) [] w') :
    Gathering s vote down others gathered w' := by
  obtain ⟨hacceptor, hlearner, hleader, hother⟩ := h.of_proposer hid hn hr rfl
  obtain ⟨hnodup, hall, hsub⟩ := hw.gather ha hup hgathered
  refine ⟨h.undisturbed hn hw.undisturbed, hacceptor ▸ hw.acceptor, hlearner ▸ hw.learner,
    hleader, fun id hne => (hother id hne).trans (hw.other id hne), hnodup, hfew, hall, ?flight,
    ?underway, ?silent⟩
  case flight =>
    intro x hx
    exact hw.flight x (h.mem_of_sent_nil rfl hx)
  case underway =>
    intro b hb
    rcases hw.underway b hb with hask | hanswer | hsender
    · exact .inl ((h.mem_flight hask).resolve_left (by simp))
    · rcases h.mem_flight hanswer with heq | hanswer
      · obtain rfl : b = a := by simpa using heq
        exact .inr (.inr (hgathered ▸ List.mem_cons_self))
      · exact .inr (.inl hanswer)
    · exact .inr (.inr (hsub hsender))
  case silent =>
    intro x u hx
    exact hw.silent x u ((h.logged_or_sent hx).resolve_right List.not_mem_nil)

/-- With a quorum of promises the leader asks all acceptors for votes. -/
theorem Gathering.conclude (hw : Gathering s vote down others senders w) {a : NodeId}
    (hn : w.node? n.id = some n) (hid : n.id = vote.ballot.proposer)
    (hr : n.role = .proposer (.gathering s vote senders))
    (h : w.Delivered n (vote.promiseOf a) (.proposer (.voting s vote []))
      (s.acceptors.map vote.acceptTo) w') :
    Voting s vote down others [] w' := by
  obtain ⟨hacceptor, hlearner, hleader, hother⟩ := h.of_proposer hid hn hr rfl
  have hasked {b : NodeId} (hb : b ∈ s.acceptors) : vote.acceptTo b ∈ w'.flight :=
    h.mem_flight_of_sent (List.mem_map_of_mem hb)
  refine ⟨h.undisturbed hn hw.undisturbed, ?acceptor, ?learner, hleader,
    fun id hne => (hother id hne).trans (hw.other id hne), List.nodup_nil, by simp, ?flight,
    fun b hb => .inl (hasked hb)⟩
  case acceptor =>
    intro b hb
    obtain ⟨p, hp, hunvoted⟩ := hw.acceptor b hb
    exact ⟨p, hacceptor ▸ hp, .inr ⟨hasked hb, hunvoted⟩⟩
  case learner =>
    intro l hl
    exact .inr ⟨[], hlearner ▸ hw.learner l hl, List.nodup_nil, Nat.succ_pos _, fun _ => rfl,
      fun b hb => .inl (.inl (hasked hb))⟩
  case flight =>
    intro x hx
    rcases h.mem_or_sent hx with hold | hnew
    · obtain ⟨b, hb, rfl | ⟨-, rfl⟩⟩ := hw.flight x hold
      · exact .prepare hb
      · exact .promise hb
    · obtain ⟨b, hb, rfl⟩ := List.mem_map.mp hnew
      exact .accept hb

/-- Whatever a gathering leader or an acceptor handles takes one unit of work, and leaves the round
gathering or, with a quorum of promises, voting. -/
theorem Gathering.deliver [Value V] (hw : Gathering s vote down others senders w)
    (hn : w.node? n.id = some n) (hup : n.alive = true) {m : Message V} (hm : m.receiver = n.id)
    {rest : Multiset (Message V)} (hflight : w.flight = m ::ₘ rest) :
    ∃ n' effects, n.handle m.sender m.body = .ok (n', effects) ∧
      ((∃ gathered, Gathering s vote down others gathered
          ({ w with flight := rest }.settle n' effects)) ∨
        quorumSize s.acceptors.length ≤ (s.acceptors.filter (· ∉ down)).length ∧
          Voting s vote down others [] ({ w with flight := rest }.settle n' effects)) ∧
      ({ w with flight := rest }.settle n' effects).work s vote.ballot.proposer + 1 =
        w.work s vote.ballot.proposer := by
  obtain ⟨a, ha, rfl | ⟨haup, rfl⟩⟩ := hw.flight m (hflight ▸ Multiset.mem_cons_self m rest)
  · obtain rfl : a = n.id := hm
    obtain ⟨p, hp, hunvoted⟩ := hw.acceptor n.id ha
    have hr := role_of_acceptor? hn hp
    obtain ⟨n', effects, hhandle, hdelivered⟩ := exists_delivered
      (hr ▸ Acceptor.answers_prepare hunvoted.promised_eq) rfl hflight
    refine ⟨n', effects, hhandle, .inl ⟨senders, hw.prepare hn hup ha hr hunvoted hdelivered⟩, ?_⟩
    apply hdelivered.work_eq
    rw [(hdelivered.of_acceptor hn hr rfl).2.2]
    simp [Body.work]
    omega
  · have hid : n.id = vote.ballot.proposer := hm.symm
    have hr := role_of_proposer? (hid ▸ hn) hw.leader
    obtain ⟨gathered, hgathered⟩ : ∃ gathered, gathered = a :: senders.filter (· ≠ a) := ⟨_, rfl⟩
    obtain ⟨hrecord, hconclude⟩ :=
      Proposer.answers_promise s vote vote.ballot.proposer hgathered
    rw [← hr] at hrecord hconclude
    rcases lt_or_ge gathered.length (quorumSize s.acceptors.length) with hfew | hmany
    · obtain ⟨n', effects, hhandle, hdelivered⟩ := exists_delivered (hrecord hfew) hm hflight
      have hnext := hw.promise ha haup hgathered hfew hn hid hr hdelivered
      refine ⟨n', effects, hhandle, .inl ⟨gathered, hnext⟩, ?_⟩
      apply hdelivered.work_eq
      rw [hnext.leader, hw.leader]
      simp [Body.work]
      omega
    · obtain ⟨n', effects, hhandle, hdelivered⟩ := exists_delivered (hconclude hmany) hm hflight
      have hnext := hw.conclude hn hid hr hdelivered
      obtain ⟨hnodup, hall, -⟩ := hw.gather ha haup hgathered
      have hquorum : gathered.length ≤ (s.acceptors.filter (· ∉ down)).length := by
        apply (List.subperm_of_subset hnodup ?_).length_le
        exact fun b hb => List.mem_filter.mpr (by simpa using hall b hb)
      refine ⟨n', effects, hhandle, .inr ⟨hmany.trans hquorum, hnext⟩, ?_⟩
      -- The accepts were due before, and are in flight now.
      apply hdelivered.work_eq
      rw [hnext.leader, hw.leader]
      simp [Body.work, Function.comp_def]
      omega

/-! ## Voting -/

theorem Hearing.keep {l : NodeId} (hw : Hearing s vote down w l)
    (hlearner : w'.learner? l = w.learner? l)
    (hkeep : ∀ a ∈ s.acceptors, vote.acceptTo a ∈ w.flight ∨ vote.learnOf a l ∈ w.flight →
      vote.acceptTo a ∈ w'.flight ∨ vote.learnOf a l ∈ w'.flight) : Hearing s vote down w' l := by
  unfold Hearing
  rw [hlearner]
  rcases hw with hdecided | ⟨voters, hcounting, hnodup, hfew, hdown, hheard⟩
  · exact .inl hdecided
  · exact .inr ⟨voters, hcounting, hnodup, hfew, hdown,
      fun a ha => (hheard a ha).imp_left (hkeep a ha)⟩

/-- An acceptor that is asked to promise says so, whether it has voted or not. -/
theorem Voting.prepare (hw : Voting s vote down others acceptedBy w)
    (hn : w.node? n.id = some n) (hmem : n.id ∈ s.acceptors) {p : Pledge V}
    (hr : n.role = .acceptor ⟨s.learners, p⟩)
    (hp : p = ⟨some vote.ballot, some vote⟩ ∨ vote.acceptTo n.id ∈ w.flight ∧ p.Unvoted vote)
    (h : w.Delivered n (vote.prepareTo n.id)
      (.acceptor ⟨s.learners, { p with promised := some vote.ballot }⟩) [vote.promiseOf n.id] w') :
    Voting s vote down others acceptedBy w' := by
  obtain ⟨hacceptor, hlearner, hproposer⟩ := h.of_acceptor hn hr rfl
  have haccept {a : NodeId} (hx : vote.acceptTo a ∈ w.flight) : vote.acceptTo a ∈ w'.flight :=
    (h.mem_flight hx).resolve_left (by simp)
  refine ⟨h.undisturbed hn hw.undisturbed, ?acceptor, ?learner, hproposer ▸ hw.leader,
    hproposer ▸ hw.other, hw.nodup, hw.confirmed, ?flight, ?underway⟩
  case acceptor =>
    intro a ha
    rw [hacceptor]
    by_cases heq : a = n.id
    · subst heq
      rcases hp with rfl | ⟨hx, hunvoted⟩
      · exact ⟨_, Function.update_self .., .inl rfl⟩
      · exact ⟨_, Function.update_self .., .inr ⟨haccept hx, hunvoted.1, by simp [eq_comm]⟩⟩
    · rw [Function.update_of_ne heq]
      obtain ⟨q, hq, hvoted⟩ := hw.acceptor a ha
      exact ⟨q, hq, hvoted.imp_right (.imp_left haccept)⟩
  case learner =>
    intro l hl
    apply (hw.learner l hl).keep (by rw [hlearner])
    exact fun a _ hx => hx.imp haccept fun hx => (h.mem_flight hx).resolve_left (by simp)
  case flight =>
    intro x hx
    rcases h.mem_or_sent hx with hold | hnew
    · exact hw.flight x hold
    · rw [List.mem_singleton.mp hnew]
      exact .promise hmem
  case underway =>
    intro a ha
    exact (hw.underway a ha).imp haccept
      (.imp_left fun hx => (h.mem_flight hx).resolve_left (by simp))

theorem Voting.accept (hw : Voting s vote down others acceptedBy w)
    (hn : w.node? n.id = some n) (hmem : n.id ∈ s.acceptors) {a : Acceptor V}
    (hr : n.role = .acceptor a)
    (h : w.Delivered n (vote.acceptTo n.id)
      (.acceptor ⟨s.learners, ⟨some vote.ballot, some vote⟩⟩)
      (vote.acceptedOf n.id :: s.learners.map (vote.learnOf n.id)) w') :
    Voting s vote down others acceptedBy w' := by
  obtain ⟨hacceptor, hlearner, hproposer⟩ := h.of_acceptor hn hr rfl
  have haccept {b : NodeId} (hx : vote.acceptTo b ∈ w.flight) :
      b = n.id ∨ vote.acceptTo b ∈ w'.flight :=
    (h.mem_flight hx).imp_left fun heq => by simpa using heq
  refine ⟨h.undisturbed hn hw.undisturbed, ?acceptor, ?learner, hproposer ▸ hw.leader,
    hproposer ▸ hw.other, hw.nodup, hw.confirmed, ?flight, ?underway⟩
  case acceptor =>
    intro b hb
    rw [hacceptor]
    by_cases heq : b = n.id
    · subst heq
      exact ⟨_, Function.update_self .., .inl rfl⟩
    · rw [Function.update_of_ne heq]
      obtain ⟨q, hq, hvoted⟩ := hw.acceptor b hb
      exact ⟨q, hq, hvoted.imp_right (.imp_left fun hx => (haccept hx).resolve_left heq)⟩
  case learner =>
    intro l hl
    apply (hw.learner l hl).keep (by rw [hlearner])
    rintro b - (hx | hx)
    · rcases haccept hx with rfl | hx
      · exact .inr (h.mem_flight_of_sent (List.mem_cons_of_mem _ (List.mem_map_of_mem hl)))
      · exact .inl hx
    · exact .inr ((h.mem_flight hx).resolve_left (by simp))
  case flight =>
    intro x hx
    rcases h.mem_or_sent hx with hold | hnew
    · exact hw.flight x hold
    · rcases List.mem_cons.mp hnew with rfl | hnew
      · exact .accepted hmem
      · obtain ⟨l, hl, rfl⟩ := List.mem_map.mp hnew
        exact .learn hmem hl
  case underway =>
    intro b hb
    rcases hw.underway b hb with hx | hx | hconfirmed
    · rcases haccept hx with rfl | hx
      · exact .inr (.inl (h.mem_flight_of_sent List.mem_cons_self))
      · exact .inl hx
    · exact .inr (.inl ((h.mem_flight hx).resolve_left (by simp)))
    · exact .inr (.inr hconfirmed)

/-- The leader handles a promise, which changes nothing, or the confirmation of a vote. -/
theorem Voting.confirm (hw : Voting s vote down others acceptedBy w) {m : Message V}
    {confirmed : List NodeId} (hn : w.node? n.id = some n) (hid : n.id = vote.ballot.proposer)
    (hr : n.role = .proposer (.voting s vote acceptedBy)) (hnodup : confirmed.Nodup)
    (hall : ∀ a ∈ confirmed, a ∈ s.acceptors) (hsub : acceptedBy ⊆ confirmed)
    (hm : ∀ a, m ≠ vote.acceptTo a ∧ (∀ l, m ≠ vote.learnOf a l) ∧
      (m = vote.acceptedOf a → a ∈ confirmed))
    (h : w.Delivered n m (.proposer (.voting s vote confirmed)) [] w') :
    Voting s vote down others confirmed w' := by
  obtain ⟨hacceptor, hlearner, hleader, hother⟩ := h.of_proposer hid hn hr rfl
  have haccept {a : NodeId} (hx : vote.acceptTo a ∈ w.flight) : vote.acceptTo a ∈ w'.flight :=
    (h.mem_flight hx).resolve_left (hm a).1.symm
  refine ⟨h.undisturbed hn hw.undisturbed, ?acceptor, ?learner, hleader,
    fun id hne => (hother id hne).trans (hw.other id hne), hnodup, hall, ?flight, ?underway⟩
  case acceptor =>
    intro a ha
    obtain ⟨p, hp, hvoted⟩ := hw.acceptor a ha
    exact ⟨p, hacceptor ▸ hp, hvoted.imp_right (.imp_left haccept)⟩
  case learner =>
    intro l hl
    apply (hw.learner l hl).keep (by rw [hlearner])
    exact fun a _ hx => hx.imp haccept fun hx =>
      (h.mem_flight hx).resolve_left ((hm a).2.1 l).symm
  case flight =>
    intro x hx
    exact hw.flight x (h.mem_of_sent_nil rfl hx)
  case underway =>
    intro a ha
    rcases hw.underway a ha with hx | hx | hconfirmed
    · exact .inl (haccept hx)
    · rcases h.mem_flight hx with heq | hx
      · exact .inr (.inr ((hm a).2.2 heq.symm))
      · exact .inr (.inl hx)
    · exact .inr (.inr (hsub hconfirmed))

theorem Voting.learn (hw : Voting s vote down others acceptedBy w) {a : NodeId}
    {before after : Learner V} (hn : w.node? n.id = some n) (hr : n.role = .learner before)
    (h : w.Delivered n (vote.learnOf a n.id) (.learner after) [] w')
    (hhearing : Hearing s vote down w' n.id) : Voting s vote down others acceptedBy w' := by
  obtain ⟨hacceptor, hlearner, hproposer⟩ := h.of_learner hn hr rfl
  have haccept {b : NodeId} (hx : vote.acceptTo b ∈ w.flight) : vote.acceptTo b ∈ w'.flight :=
    (h.mem_flight hx).resolve_left (by simp)
  refine ⟨h.undisturbed hn hw.undisturbed, ?acceptor, ?learner, hproposer ▸ hw.leader,
    hproposer ▸ hw.other, hw.nodup, hw.confirmed, ?flight, ?underway⟩
  case acceptor =>
    intro b hb
    obtain ⟨p, hp, hvoted⟩ := hw.acceptor b hb
    exact ⟨p, hacceptor ▸ hp, hvoted.imp_right (.imp_left haccept)⟩
  case learner =>
    intro l hl
    by_cases heq : l = n.id
    · exact heq ▸ hhearing
    · apply (hw.learner l hl).keep (by rw [hlearner, Function.update_of_ne heq])
      exact fun b _ hx => hx.imp haccept fun hx => (h.mem_flight hx).resolve_left (by simp [heq])
  case flight =>
    intro x hx
    exact hw.flight x (h.mem_of_sent_nil rfl hx)
  case underway =>
    intro b hb
    exact (hw.underway b hb).imp haccept
      (.imp_left fun hx => (h.mem_flight hx).resolve_left (by simp))

/-- What a learner hears after a vote was handled: one voter more, or the decision. -/
theorem Hearing.learn [Value V] (hsame : Value.same? vote.value vote.value = some true)
    {a : NodeId} (ha : a ∈ s.acceptors) (hw : Hearing s vote down w n.id)
    (hn : w.node? n.id = some n) (hup : n.id ∉ down) {rest : Multiset (Message V)}
    (hflight : w.flight = vote.learnOf a n.id ::ₘ rest) :
    ∃ before after n' effects, n.role = .learner before ∧
      n.handle a (.learn vote) = .ok (n', effects) ∧
      w.Delivered n (vote.learnOf a n.id) (.learner after) []
        ({ w with flight := rest }.settle n' effects) ∧
      Hearing s vote down ({ w with flight := rest }.settle n' effects) n.id := by
  rcases hw with ⟨hdecided, -⟩ | ⟨voters, hcounting, hnodup, hfew, -, hheard⟩
  · have hr := role_of_learner? hn hdecided
    have hanswer : n.role.Answers (vote.learnOf a n.id) (.learner (.decided s vote)) [] := by
      rw [hr]
      exact Learner.answers_decided
    obtain ⟨n', effects, hhandle, hdelivered⟩ := exists_delivered hanswer rfl hflight
    refine ⟨_, _, n', effects, hr, hhandle, hdelivered, .inl ⟨?_, hup⟩⟩
    rw [(hdelivered.of_learner hn hr rfl).2.1, Function.update_self]
  · have hr := role_of_learner? hn hcounting
    obtain ⟨counted, hcounted⟩ : ∃ counted, counted = voters.insert a := ⟨_, rfl⟩
    obtain ⟨hcount, hdecide⟩ := Learner.answers_learn (s := s) (l := n.id) hsame ha hcounted
    rw [← hr] at hcount hdecide
    rcases lt_or_ge counted.length (quorumSize s.acceptors.length) with hfew' | hmany
    · obtain ⟨n', effects, hhandle, hdelivered⟩ := exists_delivered
        (m := vote.learnOf a n.id) (hcount hfew') rfl hflight
      refine ⟨_, _, n', effects, hr, hhandle, hdelivered, .inr ⟨counted, ?_,
        hcounted ▸ hnodup.insert, hfew', fun hdown => absurd hdown hup, ?_⟩⟩
      · rw [(hdelivered.of_learner hn hr rfl).2.1, Function.update_self]
      · intro b hb
        rcases hheard b hb with (hx | hx) | hmem
        · exact .inl (.inl ((hdelivered.mem_flight hx).resolve_left (by simp)))
        · rcases hdelivered.mem_flight hx with heq | hx
          · obtain rfl : b = a := by simpa using heq
            exact .inr (hcounted ▸ List.mem_insert_self)
          · exact .inl (.inr hx)
        · exact .inr (hcounted ▸ List.mem_insert_of_mem hmem)
    · obtain ⟨n', effects, hhandle, hdelivered⟩ := exists_delivered
        (m := vote.learnOf a n.id) (hdecide hmany) rfl hflight
      refine ⟨_, _, n', effects, hr, hhandle, hdelivered, .inl ⟨?_, hup⟩⟩
      rw [(hdelivered.of_learner hn hr rfl).2.1, Function.update_self]

/-- Whatever a node handles while the round is voting takes one unit of work, and the voting goes
on. -/
theorem Voting.deliver [Value V] (hsame : Value.same? vote.value vote.value = some true)
    (hw : Voting s vote down others acceptedBy w) (hn : w.node? n.id = some n)
    (hup : n.alive = true) {m : Message V} (hm : m.receiver = n.id)
    {rest : Multiset (Message V)} (hflight : w.flight = m ::ₘ rest) :
    ∃ n' effects, n.handle m.sender m.body = .ok (n', effects) ∧
      (∃ confirmed, Voting s vote down others confirmed
        ({ w with flight := rest }.settle n' effects)) ∧
      ({ w with flight := rest }.settle n' effects).work s vote.ballot.proposer + 1 =
        w.work s vote.ballot.proposer := by
  have hround : m.OfRound s vote := hw.flight m (hflight ▸ Multiset.mem_cons_self m rest)
  cases hround with
  | @prepare a ha =>
    obtain rfl : a = n.id := hm
    obtain ⟨p, hp, hvoted⟩ := hw.acceptor n.id ha
    have hr := role_of_acceptor? hn hp
    have hbound : p.promised = none ∧ p.accepted = none ∨ p.promised = some vote.ballot := by
      rcases hvoted with rfl | ⟨-, hunvoted⟩
      · exact .inr rfl
      · exact hunvoted.promised_eq
    obtain ⟨n', effects, hhandle, hdelivered⟩ := exists_delivered
      (hr ▸ Acceptor.answers_prepare hbound) rfl hflight
    refine ⟨n', effects, hhandle, ⟨_, hw.prepare hn ha hr hvoted hdelivered⟩, ?_⟩
    apply hdelivered.work_eq
    rw [(hdelivered.of_acceptor hn hr rfl).2.2]
    simp [Body.work]
    omega
  | @promise a ha =>
    have hid : n.id = vote.ballot.proposer := hm.symm
    have hr := role_of_proposer? (hid ▸ hn) hw.leader
    -- The leader stays as it is, so only one of its two occurrences may be rewritten.
    have hanswer :
        n.role.Answers (vote.promiseOf a) (.proposer (.voting s vote acceptedBy)) [] := by
      rw [hr]
      exact Proposer.answers_late acceptedBy
    obtain ⟨n', effects, hhandle, hdelivered⟩ := exists_delivered hanswer hm hflight
    have hnext := hw.confirm hn hid hr hw.nodup hw.confirmed (List.Subset.refl _) (by simp)
      hdelivered
    refine ⟨n', effects, hhandle, ⟨_, hnext⟩, hdelivered.work_eq ?_⟩
    rw [hnext.leader, hw.leader]
    simp [Body.work]
  | @accept a ha =>
    obtain rfl : a = n.id := hm
    obtain ⟨p, hp, hvoted⟩ := hw.acceptor n.id ha
    have hr := role_of_acceptor? hn hp
    have hbound : ∀ b, p.promised = some b → b = vote.ballot := by
      rcases hvoted with rfl | ⟨-, hunvoted⟩
      · simp [eq_comm]
      · exact hunvoted.2
    obtain ⟨n', effects, hhandle, hdelivered⟩ := exists_delivered
      (hr ▸ Acceptor.answers_accept hbound) rfl hflight
    refine ⟨n', effects, hhandle, ⟨_, hw.accept hn ha hr hdelivered⟩, hdelivered.work_eq ?_⟩
    rw [(hdelivered.of_acceptor hn hr rfl).2.2]
    simp [Body.work, Function.comp_def]
    omega
  | @accepted a ha =>
    have hid : n.id = vote.ballot.proposer := hm.symm
    have hr := role_of_proposer? (hid ▸ hn) hw.leader
    obtain ⟨n', effects, hhandle, hdelivered⟩ := exists_delivered
      (m := vote.acceptedOf a) (hr ▸ Proposer.answers_accepted hsame acceptedBy) hm hflight
    have hall : ∀ b ∈ acceptedBy.insert a, b ∈ s.acceptors := by
      simpa using ⟨ha, hw.confirmed⟩
    have hnext := hw.confirm hn hid hr hw.nodup.insert hall (List.subset_insert a acceptedBy)
      (by simp [eq_comm]) hdelivered
    refine ⟨n', effects, hhandle, ⟨_, hnext⟩, hdelivered.work_eq ?_⟩
    rw [hnext.leader, hw.leader]
    simp [Body.work]
  | @learn a l ha hl =>
    obtain rfl : l = n.id := hm
    obtain ⟨before, after, n', effects, hr, hhandle, hdelivered, hhearing⟩ :=
      (hw.learner n.id hl).learn hsame ha hn ((hw.undisturbed _ _ hn).2 hup) hflight
    refine ⟨n', effects, hhandle, ⟨_, hw.learn hn hr hdelivered hhearing⟩, ?_⟩
    apply hdelivered.work_eq
    rw [(hdelivered.of_learner hn hr rfl).2.2]
    simp [Body.work]
    omega

/-! ## Beside the messages -/

theorem Gathering.note (hw : Gathering s vote down others senders w) {e : Event V}
    (he : e.Routine) : Gathering s vote down others senders { w with log := w.log ++ [e] } := by
  refine ⟨hw.undisturbed, hw.acceptor, hw.learner, hw.leader, hw.other, hw.nodup, hw.few, hw.up,
    hw.flight, hw.underway, fun x u hx => ?_⟩
  rcases List.mem_append.mp hx with hold | hnew
  · exact hw.silent x u hold
  · obtain rfl := List.mem_singleton.mp hnew
    cases he

theorem Voting.note (hw : Voting s vote down others acceptedBy w) (e : Event V) :
    Voting s vote down others acceptedBy { w with log := w.log ++ [e] } :=
  ⟨hw.undisturbed, hw.acceptor, hw.learner, hw.leader, hw.other, hw.nodup, hw.confirmed,
    hw.flight, hw.underway⟩

theorem Gathering.settle_alive (hw : Gathering s vote [] others senders w)
    (hn : w.node? n.id = some n) (alive : Bool) (r : Remark V) :
    Gathering s vote [] others senders (w.settle { n with alive } [.note r]) := by
  obtain ⟨hacceptor, hlearner, hproposer, hflight⟩ := World.settle_alive hn alive r
  refine ⟨hw.undisturbed.settle_alive hn alive r, hacceptor ▸ hw.acceptor, hlearner ▸ hw.learner,
    hproposer ▸ hw.leader, hproposer ▸ hw.other, hw.nodup, hw.few, hw.up, hflight ▸ hw.flight,
    hflight ▸ hw.underway, fun x u hx => hw.silent x u ?_⟩
  simpa [settle, Effect.events, Effect.event] using hx

theorem Voting.settle_alive (hw : Voting s vote [] others acceptedBy w)
    (hn : w.node? n.id = some n) (alive : Bool) (r : Remark V) :
    Voting s vote [] others acceptedBy (w.settle { n with alive } [.note r]) := by
  obtain ⟨hacceptor, hlearner, hproposer, hflight⟩ := World.settle_alive hn alive r
  refine ⟨hw.undisturbed.settle_alive hn alive r, ?_, ?_, hproposer ▸ hw.leader,
    hproposer ▸ hw.other, hw.nodup, hw.confirmed, hflight ▸ hw.flight, hflight ▸ hw.underway⟩
  · rw [hacceptor, hflight]
    exact hw.acceptor
  · intro l hl
    unfold Hearing
    rw [hlearner, hflight]
    exact hw.learner l hl

end

end World

end Synod
