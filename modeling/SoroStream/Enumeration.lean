import SoroStream.Indexes
import SoroStream.Lib.Listing

namespace SoroStream

open Lib Lib.Rollback Lib.Rollback.Prog Lib.Runs Lib.SlotArray Contract

variable {host : Host} {env : Env host} {w w' : World} {c c' : Chain} {events : List (Event host)} {made : List Stream}
  {ids : List StreamId} {streams : Streams}

theorem action_enumerated {b : Book} {ts : List Transfer} (h : Action env w made b ts)
    (hw : Represents w.book.globalIndex ids) : Represents b.globalIndex (ids ++ made.map Stream.id) := by
  cases h with
  | opened s => exact hw.push s.id
  | split id s cancelAmount earned streamed h => exact hw.push _
  | withdrawn single id s claim w₁ out us h =>
      rw [List.map_nil, List.append_nil]
      cases out with
      | none | some s' => exact hw
  | _ =>
      rw [List.map_nil, List.append_nil]
      exact hw

theorem acts_enumerated (h : Acts env made w w') (hw : Represents w.book.globalIndex ids) :
    Represents w'.book.globalIndex (ids ++ made.map Stream.id) := by
  induction h with
  | refl w => simpa using hw
  | tail _ hlast ih =>
      obtain ⟨b, ts, w₁, ha, -, rfl⟩ := hlast
      rw [List.map_append, ← List.append_assoc]
      exact action_enumerated ha (ih hw)

structure Enumerates (w : World) (ids : List StreamId) : Prop where
  index : Represents w.book.globalIndex ids
  stored : ∀ id s, w.book.streams.lookup id = some s → id ∈ ids

theorem run_enumerates (hfresh : Fresh host c) (hrun : SystemRun host c events c') :
    Reached host c' ∧ Enumerates c'.world (created c events) := by
  refine hrun.trace_inv (fun events c' => Reached host c' ∧ Enumerates c'.world (created c events)) ?_ ?_
  · refine ⟨⟨c, [], hfresh, .nil⟩, ?_, ?_⟩
    · rw [hfresh.book]
      exact represents_empty
    · intro id s hs
      simp [hfresh.book, Book.fresh] at hs
  · rintro es v e hr ⟨hreached, henum⟩ hmay
    have hcreated : created c (es ++ [e]) = created c es ++ v.made e := hr.outputs_snoc e
    refine ⟨hreached.next hmay, ?_, ?_⟩
    · rw [hcreated]
      rcases step_cases hmay with ⟨hmade, haside⟩ | ⟨env, call, made, u, rfl, -, hids, -, haside, hacts⟩
      · rw [hmade, List.append_nil, haside.book]
        exact henum.index
      · rw [← hids]
        exact acts_enumerated hacts (haside.book ▸ henum.index)
    · intro id s hs
      rw [hcreated, List.mem_append]
      by_cases hid : id ∈ v.made e
      · exact .inr hid
      · obtain ⟨r, hr, -⟩ := step_descends hmay (reached_accounts hreached) id hid s hs
        exact .inl (henum.stored id r hr)

theorem getAllStreamIds_eq (h : Represents w.book.globalIndex ids) (hroom : ids.length ≤ u32Max) {k : Nat} (hk : k ≤ 20)
    (start : Nat) : getAllStreamIds start k w =
      (page ids start k).filter fun id => (w.book.streams.lookup id).isSome := by
  have hcount : Storage.getGlobalStreamCount w = ids.length := h.1
  have hstop : min (saturatingAddU32 start (min k 20)) ids.length = min (start + k) ids.length := by
    rw [saturatingAddU32, Checked.satAddNat, min_eq_left hk]
    omega
  rw [getAllStreamIds, hcount, hstop, page, List.filter_filterMap]
  refine List.filterMap_congr ?_
  intro i _
  rw [Storage.getGlobalStreamAt, h.2]
  cases ids[i]? with
  | none => rfl
  | some id =>
      cases hl : w.book.streams.lookup id with
      | none => simp [Storage.loadStream, hl, Option.filter]
      | some s => simp [Storage.loadStream, hl, Option.filter]

theorem flatMap_getAllStreamIds (h : Represents w.book.globalIndex ids) (hroom : ids.length ≤ u32Max) {k n : Nat}
    (hk : k ≤ 20) (hall : ids.length ≤ n * k) :
    (List.range n).flatMap (fun i => getAllStreamIds (i * k) k w) =
      ids.filter fun id => (w.book.streams.lookup id).isSome := by
  have hpages : (fun i => getAllStreamIds (i * k) k w) =
      fun i => (page ids (i * k) k).filter fun id => (w.book.streams.lookup id).isSome :=
    funext fun i => getAllStreamIds_eq h hroom hk (i * k)
  rw [hpages, ← List.filter_flatMap, flatMap_page, List.take_of_length_le hall]

def Stats.count (stats : Stats) (s : Stream) : Stats where
  totalStreams := stats.totalStreams + 1
  activeStreams := stats.activeStreams + (if s.status = .active then 1 else 0)
  totalVolume := saturatingAddI128 stats.totalVolume s.deposit

theorem foldl_count (l : List Stream) (stats : Stats) :
    l.foldl Stats.count stats = ⟨stats.totalStreams + l.length,
      stats.activeStreams + l.countP fun s => s.status = .active,
      (l.map Stream.deposit).foldl saturatingAddI128 stats.totalVolume⟩ := by
  induction l generalizing stats with
  | nil => rfl
  | cons s l ih =>
      rw [List.foldl_cons, ih, List.countP_cons, List.length_cons, List.map_cons, List.foldl_cons]
      simp only [Stats.count, Stats.mk.injEq, decide_eq_true_eq, and_true]
      omega

theorem getStats_eq (h : Represents w.book.globalIndex ids) :
    getStats w = (ids.filterMap w.book.streams.lookup).foldl Stats.count ⟨0, 0, 0⟩ := by
  have hcount : Storage.getGlobalStreamCount w = ids.length := h.1
  have hslots : ids.filterMap w.book.streams.lookup = (List.range ids.length).filterMap fun i =>
      (Storage.getGlobalStreamAt i w).bind fun id => Storage.loadStream id w := by
    have hread : (fun i => (Storage.getGlobalStreamAt i w).bind fun id => Storage.loadStream id w) =
        fun i => (ids[i]?).bind w.book.streams.lookup :=
      funext fun i => congrArg (Option.bind · w.book.streams.lookup) (h.2 i)
    rw [hread, ← List.filterMap_filterMap, range_filterMap_getElem?, List.take_length]
  rw [hslots, List.foldl_filterMap, getStats, hcount]
  congr 1
  funext stats i
  cases (Storage.getGlobalStreamAt i w).bind fun id => Storage.loadStream id w with
  | none => rfl
  | some s => rfl

/-- In every state reached without assigning an ID twice, the pages list the stored
streams in the order of their creation, and the statistics count them. -/
theorem enumeration_exact (hfresh : Fresh host c) (hrun : SystemRun host c events c')
    (honce : (created c events).Nodup) (hcount : (created c events).length < 2 ^ 32) :
    (∀ k n, 1 ≤ k → k ≤ 20 → Storage.getGlobalStreamCount c'.world ≤ n * k →
      let pages := (List.range n).flatMap fun i => getAllStreamIds (i * k) k c'.world
      pages = (created c events).filter (fun id => (c'.world.book.streams.lookup id).isSome) ∧
      pages.Nodup ∧
      ∀ id, id ∈ pages ↔ ∃ s, c'.world.book.streams.lookup id = some s) ∧
    getStats c'.world =
      ⟨c'.world.book.streams.entries.card,
        c'.world.book.streams.entries.countP fun e => e.2.status = .active,
        min (Escrow.total Stream.deposit c'.world.book.streams) i128Max⟩ := by
  obtain ⟨hreached, henum⟩ := run_enumerates hfresh hrun
  have hroom : (created c events).length ≤ u32Max := Nat.le_of_lt_succ hcount
  constructor
  · intro k n _ hk hall pages
    have hpages : pages = (created c events).filter fun id => (c'.world.book.streams.lookup id).isSome :=
      flatMap_getAllStreamIds henum.index hroom hk (henum.index.1 ▸ hall)
    refine ⟨hpages, ?_, ?_⟩
    · rw [hpages]
      exact honce.filter _
    · intro id
      rw [hpages, List.mem_filter, Option.isSome_iff_exists]
      constructor
      · rintro ⟨-, hstored⟩
        exact hstored
      · rintro ⟨s, hs⟩
        exact ⟨henum.stored id s hs, s, hs⟩
  · have hvalues := values_of_keys honce henum.stored
    have hdeposits : ∀ d ∈ ((created c events).filterMap c'.world.book.streams.lookup).map Stream.deposit, 0 ≤ d := by
      intro d hd
      obtain ⟨s, hs, rfl⟩ := List.mem_map.mp hd
      obtain ⟨id, -, hlookup⟩ := List.mem_filterMap.mp hs
      exact (reached_accounts hreached id s hlookup).2.toAccounted.deposit_nonneg
    have hsum : (((created c events).filterMap c'.world.book.streams.lookup).map Stream.deposit).foldl
        saturatingAddI128 0 = min (Escrow.total Stream.deposit c'.world.book.streams) i128Max := by
      have hfold : _ = min _ i128Max :=
        Checked.foldl_clamp (by decide : i128Min ≤ 0) hdeposits (le_refl (0 : Int)) (by decide)
      have htotal := congrArg (fun m : Multiset Stream => (m.map Stream.deposit).sum) hvalues
      simp only [Multiset.map_coe, Multiset.sum_coe, Multiset.map_map] at htotal
      rw [zero_add, htotal] at hfold
      exact hfold
    have hcard := congrArg Multiset.card hvalues
    have hactive := congrArg (Multiset.countP fun s : Stream => s.status = .active) hvalues
    rw [Multiset.coe_card, Multiset.card_map] at hcard
    rw [Multiset.coe_countP, Multiset.countP_map] at hactive
    rw [getStats_eq henum.index, foldl_count, hsum, hcard, hactive, zero_add, zero_add, Multiset.countP_eq_card_filter]

namespace Sample

def thinned : List (Event site) := mixed ++ [call [2] 30 (.cancelStream 2315000 (party 2))]

end Sample

theorem sample_enumeration_exact :
    let w := (Sample.genesis.after Sample.thinned).world
    let pages := (List.range 2).flatMap fun i => getAllStreamIds (i * 3) 3 w
    (pages = (created Sample.genesis Sample.thinned).filter (fun id => (w.book.streams.lookup id).isSome) ∧
      pages.Nodup ∧
      ∀ id, id ∈ pages ↔ ∃ s, w.book.streams.lookup id = some s) ∧
    getStats w = ⟨w.book.streams.entries.card, w.book.streams.entries.countP fun e => e.2.status = .active,
      min (Escrow.total Stream.deposit w.book.streams) i128Max⟩ := by
  obtain ⟨hpages, hstats⟩ := enumeration_exact Sample.genesis_fresh (run_of_inOrder (by decide))
    (by decide +kernel : (created Sample.genesis Sample.thinned).Nodup) (by decide +kernel)
  exact ⟨hpages 3 2 (by decide) (by decide) (by decide +kernel), hstats⟩

end SoroStream
