import SoroStream.Lineage

namespace SoroStream

open Lib Lib.Rollback Lib.Rollback.Prog Lib.Runs Contract

variable {host : Host} {env : Env host} {w : World} {c c' : Chain} {e : Event host} {events : List (Event host)}

def StreamCall.names : StreamCall → List Address
  | .createStream args => [args.recipient]
  | .batchCreateStream args => args.recipients
  | .transferRecipient _ _ newRecipient => [newRecipient]
  | _ => []

/-- What an enabled whitelist asks of an event: the recipients that a successful call
writes down are on it. -/
def Chain.Screened (c : Chain) (e : Event host) : Prop :=
  ∀ env k, e = .call env (.stream k) → (k.exec env c.world).value?.isSome = true →
    Storage.isWhitelistEnabled c.world = true → ∀ a ∈ k.names, Storage.isWhitelisted a c.world = true

/-- The two calls that write recipients down without a look at the whitelist. -/
def StreamCall.unscreened : StreamCall → Bool
  | .batchCreateStream _ | .transferRecipient _ _ _ => true
  | _ => false

/-- A successful one with a recipient who is not on the enabled whitelist. -/
def Chain.SlipsIn (c : Chain) : Event host → Prop
  | .call env (.stream k) => k.unscreened = true ∧ (k.exec env c.world).value?.isSome = true ∧
      Storage.isWhitelistEnabled c.world = true ∧ ∃ a ∈ k.names, Storage.isWhitelisted a c.world = false
  | _ => False

instance : ∀ (c : Chain) (e : Event host), Decidable (c.SlipsIn e)
  | _, .call _ (.stream _) => inferInstanceAs (Decidable (_ ∧ _ ∧ _ ∧ _))
  | _, .call _ (.config _) => .isFalse fun h => h
  | _, .call _ (.view _) => .isFalse fun h => h
  | _, .treasury _ _ => .isFalse fun h => h
  | _, .tokens _ _ => .isFalse fun h => h

/-- `create_stream` looks, and no other call names anybody. -/
theorem names_listed {k : StreamCall} (hk : k.unscreened = false) {made : List StreamId} {w' : World}
    (hok : k.exec env w = .ok made w') (henabled : Storage.isWhitelistEnabled w = true) :
    ∀ a ∈ k.names, Storage.isWhitelisted a w = true := by
  intro a ha
  cases k with
  | createStream args =>
      obtain ⟨_, _, hcreate, -, -⟩ := bind_ok.mp hok
      rw [List.mem_singleton.mp ha]
      exact (createStream_admits hcreate).1 henabled
  | batchCreateStream | transferRecipient => exact Bool.noConfusion hk
  | _ => exact absurd ha List.not_mem_nil

theorem screened_iff : c.Screened e ↔ ¬c.SlipsIn e := by
  constructor
  · intro hscreened hslips
    cases e with
    | call env call =>
        cases call with
        | stream k =>
            obtain ⟨-, hok, henabled, a, ha, hunlisted⟩ := hslips
            exact Bool.noConfusion (hunlisted.symm.trans (hscreened env k rfl hok henabled a ha))
        | config => exact hslips
        | view => exact hslips
    | treasury => exact hslips
    | tokens => exact hslips
  · rintro hstays env k rfl hok henabled a ha
    by_cases hk : k.unscreened = true
    · by_contra hunlisted
      exact hstays ⟨hk, hok, henabled, a, ha, by simpa using hunlisted⟩
    · obtain ⟨made, hmade⟩ := Option.isSome_iff_exists.mp hok
      exact names_listed (by simpa using hk) (Outcome.ok_commit hmade c.world) henabled a ha

/-- The whitelist is enforced throughout a run exactly when no batch creation and no
change of recipient slips somebody in. -/
theorem whitelist_enforced_iff (c : Chain) (events : List (Event host)) :
    (∀ es e es', events = es ++ e :: es' → (c.after es).Screened e) ↔
      Throughout Chain.step (fun c e => ¬Chain.SlipsIn c e) c events := by
  rw [throughout_iff]
  refine forall_congr' fun es => forall_congr' fun e => forall_congr' fun es' => forall_congr' fun _ => ?_
  exact screened_iff

namespace Sample

def guarded : List (Event site) :=
  [configure [4] 1 (.initializeContract (party 4) "1.0.0"),
    configure [4] 2 (.setWhitelistEnabled (party 4) true), configure [4] 3 (.addToWhitelist (party 4) (party 3)),
    opening 0 0]

def handover : Event site := call [3] 20 (.transferRecipient streamId (party 3) (party 6))

end Sample

theorem transfer_slips_in :
    SystemRun Sample.site Sample.genesis (Sample.guarded ++ [Sample.handover])
      (Sample.genesis.after (Sample.guarded ++ [Sample.handover])) ∧
    Storage.isWhitelistEnabled (Sample.genesis.after Sample.guarded).world = true ∧
    Storage.isWhitelisted (Sample.party 6) (Sample.genesis.after Sample.guarded).world = false ∧
    (((Sample.genesis.after (Sample.guarded ++ [Sample.handover])).world.book.streams.lookup Sample.streamId).map
      Stream.recipient) = some (Sample.party 6) ∧
    ¬∀ es e es', Sample.guarded ++ [Sample.handover] = es ++ e :: es' → (Sample.genesis.after es).Screened e := by
  refine ⟨run_of_inOrder (by decide), by decide, by decide, by decide +kernel, ?_⟩
  intro hall
  have hlisted := hall Sample.guarded Sample.handover [] rfl _ _ rfl (by decide +kernel) (by decide)
    (Sample.party 6) (List.mem_singleton_self _)
  exact absurd hlisted (by decide)

end SoroStream
