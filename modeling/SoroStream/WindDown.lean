import SoroStream.Balance
import SoroStream.PathIndependence
import SoroStream.Exit
import SoroStream.PauseWindow

namespace SoroStream

open Lib Lib.Rollback Lib.Rollback.Prog Lib.Runs Contract

variable {host : Host} {c c' : Chain} {w w' : World} {id : StreamId} {s : Stream} {events : List (Event host)}

/-- A live stream is left by its sender or, where it allows that, by its recipient. -/
inductive Door
  | sender
  | recipient
  deriving DecidableEq

structure Exit (host : Host) where
  env : Env host
  door : Door
  stream : Stream

namespace Exit

variable {x y : Exit host}

def call (x : Exit host) : StreamCall :=
  match x.door with
  | .sender => .cancelStream x.stream.id x.stream.sender
  | .recipient => .recipientTerminate x.stream.id x.stream.recipient

def event (x : Exit host) : Event host := .call x.env (.stream x.call)

def share (x : Exit host) : Int :=
  match x.door with
  | .sender => flowed x.stream (x.stream.clock x.env.now)
  | .recipient =>
      if x.stream.cliffTime ≤ x.stream.clock x.env.now then flowed x.stream (x.stream.clock x.env.now) else 0

def payments (x : Exit host) : List Transfer :=
  positive (claimTransfer host x.stream x.share) ++
    positive (refundTransfer host x.stream (x.stream.remaining - x.share))

def Granted (w : World) (x : Exit host) : Prop :=
  match x.door with
  | .sender => x.env.auths x.stream.sender = true
  | .recipient => x.env.auths x.stream.recipient = true ∧ x.stream.allowRecipientTermination = true ∧
      w.pause.pausedAt x.env.now = false

structure Open (w : World) (x : Exit host) : Prop where
  stored : w.book.streams.lookup x.stream.id = some x.stream
  live : x.stream.Live
  honours : Honours x.env
  granted : x.Granted w

structure Taken (x : Exit host) (w w' : World) : Prop where
  sender : x.stream.sender ≠ host.contract
  share_nonneg : 0 ≤ x.share
  share_le : x.share ≤ x.stream.remaining
  log : w'.log = w.log ++ x.payments
  streams : w'.book.streams = w.book.streams.erase x.stream.id
  pause : ∀ t, x.env.now ≤ t → w'.pause.pausedAt t = w.pause.pausedAt t

theorem Open.taken (h : x.Open w) (hw : Solvent host x.env.now w) (hsenders : SendersOutside host w.book.streams) :
    ∃ w', x.call.exec x.env w = .ok [] w' ∧ x.Taken w w' := by
  have hleft : ∀ {k : Contract host Unit},
      ExitsWith k x.env w x.stream.id x.stream x.share (x.stream.remaining - x.share) →
      (∀ v, k x.env w = .ok () v → x.call.exec x.env w = .ok [] v) →
      ∃ w', x.call.exec x.env w = .ok [] w' ∧ x.Taken w w' := by
    intro k hexit hexec
    obtain ⟨w', hok, hlog, -, hstreams⟩ := hexit.succeeds
    have hcall := hexec w' hok
    exact ⟨w', hcall, hsenders _ _ h.stored, hexit.share_nonneg, sub_nonneg.mp hexit.rest_nonneg, hlog, hstreams,
      fun t ht => streamCall_pausedAt hcall ht⟩
  have hgranted := h.granted
  obtain ⟨env, door, s⟩ := x
  cases door with
  | sender =>
      exact hleft (cancelStream_exits hw h.stored h.live h.honours hgranted) fun v hok => bind_ok.mpr ⟨(), v, hok, rfl⟩
  | recipient =>
      obtain ⟨hauth, hallow, hrun⟩ := hgranted
      exact hleft (recipientTerminate_exits hw h.stored h.live h.honours hauth hallow hrun)
        fun v hok => bind_ok.mpr ⟨(), v, hok, rfl⟩

theorem Open.still (h : y.Open w) (hx : x.Taken w w') (hne : y.stream.id ≠ x.stream.id)
    (hlater : x.env.now ≤ y.env.now) : y.Open w' := by
  refine ⟨?_, h.live, h.honours, ?_⟩
  · rw [hx.streams, Finmap.lookup_erase_ne hne]
    exact h.stored
  · have hgranted := h.granted
    unfold Granted at hgranted ⊢
    rwa [hx.pause y.env.now hlater]

theorem Taken.spent_eq (h : x.Taken w w') : spent host.contract x.stream.token x.payments = x.stream.remaining := by
  have hnonneg := h.share_nonneg
  have hle := h.share_le
  have hshare : spent host.contract x.stream.token (positive (claimTransfer host x.stream x.share)) = x.share :=
    spent_paid rfl rfl hnonneg
  have hrest : spent host.contract x.stream.token
      (positive (refundTransfer host x.stream (x.stream.remaining - x.share))) = x.stream.remaining - x.share :=
    spent_paid rfl rfl (sub_nonneg.mpr hle)
  rw [payments, spent_append, hshare, hrest]
  omega

/-- The contract may be the recipient of a stream, but not its sender. -/
theorem Taken.outflow_eq (h : x.Taken w w') : outflow host x.stream.token x.payments =
    if x.stream.recipient = host.contract then x.stream.remaining - x.share else x.stream.remaining := by
  have hrest : outflow host x.stream.token
      (positive (refundTransfer host x.stream (x.stream.remaining - x.share))) = x.stream.remaining - x.share :=
    outflow_paid rfl rfl h.sender (sub_nonneg.mpr h.share_le)
  rw [payments, outflow_append, hrest]
  by_cases hself : x.stream.recipient = host.contract
  · have hshare : outflow host x.stream.token (positive (claimTransfer host x.stream x.share)) = 0 :=
      outflow_kept rfl hself
    rw [if_pos hself, hshare, zero_add]
  · have hshare : outflow host x.stream.token (positive (claimTransfer host x.stream x.share)) = x.share :=
      outflow_paid rfl rfl hself h.share_nonneg
    rw [if_neg hself, hshare]
    omega

end Exit

structure WoundDown (exits : List (Exit host)) (w w' : World) : Prop where
  log : w'.log = w.log ++ exits.flatMap Exit.payments
  gone : ∀ id, id ∈ exits.map (fun x => x.stream.id) → w'.book.streams.lookup id = none
  others : ∀ id, id ∉ exits.map (fun x => x.stream.id) → w'.book.streams.lookup id = w.book.streams.lookup id
  whole : ∀ x ∈ exits, 0 ≤ x.share ∧ x.share ≤ x.stream.remaining ∧
    spent host.contract x.stream.token x.payments = x.stream.remaining ∧
    outflow host x.stream.token x.payments =
      if x.stream.recipient = host.contract then x.stream.remaining - x.share else x.stream.remaining

theorem WoundDown.nil (w : World) : WoundDown ([] : List (Exit host)) w w :=
  ⟨by simp, by simp, fun _ _ => rfl, by simp⟩

theorem WoundDown.cons {x : Exit host} {exits : List (Exit host)} {v : World} (hx : x.Taken w v)
    (hnew : x.stream.id ∉ exits.map fun x => x.stream.id) (h : WoundDown exits v w') : WoundDown (x :: exits) w w' := by
  refine ⟨?_, ?_, ?_, ?_⟩
  · rw [h.log, hx.log, List.flatMap_cons, List.append_assoc]
  · intro id hid
    rcases List.mem_cons.mp hid with rfl | hid
    · rw [h.others _ hnew, hx.streams, Finmap.lookup_erase]
    · exact h.gone id hid
  · intro id hid
    have hne : id ≠ x.stream.id := List.ne_of_not_mem_cons hid
    rw [h.others id (List.not_mem_of_not_mem_cons hid), hx.streams, Finmap.lookup_erase_ne hne]
  · intro y hy
    rcases List.mem_cons.mp hy with rfl | hy
    · exact ⟨hx.share_nonneg, hx.share_le, hx.spent_eq, hx.outflow_eq⟩
    · exact h.whole y hy

/-- There is no run on the contract. From every reached state, whichever live streams are left,
through whichever of the two doors and in whatever order, at times that do not run
backwards: every exit goes through and pays exactly its share, each deposit less what was
withdrawn is paid out, and leaves the contract but for a share of its own, and the other
streams are not touched. -/
theorem exits_in_any_order (hreached : Reached host c) (exits : List (Exit host)) (hopen : ∀ x ∈ exits, x.Open c.world)
    (hdistinct : (exits.map fun x => x.stream.id).Nodup)
    (htimes : (c.now :: exits.map fun x => x.env.now).Pairwise (· ≤ ·)) :
    ∃ c', SystemRun host c (exits.map Exit.event) c' ∧ WoundDown exits c.world c'.world := by
  induction exits generalizing c with
  | nil => exact ⟨c, .nil, .nil _⟩
  | cons x exits ih =>
      obtain ⟨hfirst, hlater⟩ := List.pairwise_cons.mp htimes
      have hnow : c.now ≤ x.env.now := hfirst _ (by simp)
      have hw : Solvent host x.env.now c.world := aside_solvent hnow (.refl _) (reached_solvent hreached)
      obtain ⟨v, hexec, hx⟩ := (hopen x (by simp)).taken hw (reached_senders hreached)
      obtain ⟨hnew, hdistinct⟩ := List.nodup_cons.mp hdistinct
      have hstep : c.step x.event = ⟨v, x.env.now⟩ := step_of_ok hexec
      have hmay : May c x.event := ⟨hnow, trivial⟩
      have hnext := hreached.next hmay
      rw [hstep] at hnext
      have hstill : ∀ y ∈ exits, y.Open v := by
        intro y hy
        have hne : y.stream.id ≠ x.stream.id := fun heq => hnew (List.mem_map.mpr ⟨y, hy, heq⟩)
        have hafter := (List.pairwise_cons.mp hlater).1 _ (List.mem_map_of_mem hy)
        exact (hopen y (List.mem_cons_of_mem x hy)).still hx hne hafter
      obtain ⟨c', hrun, hdown⟩ := ih hnext hstill hdistinct hlater
      have hone : SystemRun host c [x.event] ⟨v, x.env.now⟩ := hstep ▸ Run.snoc .nil hmay
      exact ⟨c', hone.append hrun, hdown.cons hx hnew⟩

namespace Sample

def secondTerms : CreateArgs := { terms 500 0 with sender := party 4, recipient := party 5 }

def bothOpen : Chain := genesis.after [opening 0 0, call [4] 20 (.createStream secondTerms)]

/-- The recipient of the second stream leaves first, then the sender of the first. -/
def leaving : List (Exit site) :=
  [⟨signed [5] 1010, .recipient, createdStream site secondTerms 20⟩,
    ⟨signed [2] 2010, .sender, createdStream site (terms 0 0) 10⟩]

end Sample

theorem sample_exits_in_any_order : ∃ c', SystemRun Sample.site Sample.bothOpen (Sample.leaving.map Exit.event) c' ∧
    WoundDown Sample.leaving Sample.bothOpen.world c'.world := by
  refine exits_in_any_order (reached_after Sample.genesis_fresh (by decide)) Sample.leaving ?_ (by decide) (by decide)
  intro x hx
  simp only [Sample.leaving, List.mem_cons, List.not_mem_nil, or_false] at hx
  rcases hx with rfl | rfl
  · exact ⟨by decide +kernel, .inl rfl, fun _ _ _ _ _ => rfl, by decide, rfl, by decide +kernel⟩
  · have hsigned : (Sample.signed [2] 2010).auths (Sample.party 2) = true := by decide
    exact ⟨by decide +kernel, .inl rfl, fun _ _ _ _ _ => rfl, hsigned⟩

end SoroStream
