import Hostlink.Proofs.Router.Run
import Mathlib.Data.List.Induction
import Mathlib.Data.List.Nodup

/-!
# Every push reaches every subscriber

Subscribers come and go, and the host finds out who left when it sends the next push. Meanwhile nobody
who listens misses a push or gets one twice, whether or not a handler took it.

* `Router.Listens` — a subscriber has listened during the last of some operations;
* `Router.Session.drained` — what a subscriber has read in a run;
* `Session.hears_step`, `Session.hears_run` — one operation, and a run;
* `Session.subscribers_hear` — **a subscriber gets each push since it subscribed, once and in order**, and
  after a push the host sends to those who listen and nobody else.
-/

namespace Hostlink.Router

/-- Subscriber `n` has listened during `later`, the last of the operations: it subscribed just before,
and has not left since. -/
def Listens (ops : List Op) (n : Nat) (later : List Op) : Prop :=
  ∃ earlier, ops = earlier ++ .subscribe :: later ∧ n = earlier.countP Op.subscribes ∧ .unsubscribe n ∉ later

/-- What a subscriber reads by an operation. -/
def Op.readBy (n : Nat) (op : Op) (a : Answer) : List Push :=
  match op, a with
  | .drain m, .pushes (some ps) => if m = n then ps else []
  | _, _ => []

namespace Session

/-- What a subscriber has read in a run. -/
def drained (s : Session) (n : Nat) : List Op → List Push
  | [] => []
  | op :: ops => op.readBy n (s.step op).1 ++ drained (s.step op).2 n ops

variable {s : Session} {n : Nat}

theorem drained_concat (s : Session) (n : Nat) (ops : List Op) (op : Op) :
    s.drained n (ops ++ [op]) = s.drained n ops ++ op.readBy n ((s.run ops).step op).1 := by
  induction ops generalizing s with
  | nil => simp [drained, run]
  | cons o ops ih => rw [List.cons_append, drained, ih, drained, List.append_assoc]; rfl

/-! ## One operation -/

/-- There are as many channels as subscriptions. -/
theorem length_onChannels (op : Op) (cs : List Channel) :
    (op.onChannels cs).length = cs.length + if op.subscribes then 1 else 0 := by
  cases op <;> simp [Op.onChannels, Op.subscribes]

theorem readBy_drain_of_ne {m : Nat} (hm : m ≠ n) (a : Answer) : Op.readBy n (.drain m) a = [] := by
  rcases a with _ | _ | (_ | ps) | _ | _
  case pushes.some => exact if_neg hm
  all_goals rfl

/-- Nobody reads a channel that is not there. -/
theorem readBy_of_none (hnone : s.router.channels[n]? = none) (op : Op) : op.readBy n (s.step op).1 = [] := by
  cases op with
  | drain m =>
    by_cases hm : m = n
    · subst hm
      simp only [step, Router.drain, hnone]
      rfl
    · exact readBy_drain_of_ne hm _
  | _ => rfl

/-- **A subscriber that listens hears each push once**, after all that it has not read yet. -/
theorem hears_step {q : List Push} (hc : s.router.channels[n]? = some ⟨q, true, true⟩) {op : Op}
    (hop : op ≠ .unsubscribe n) :
    ∃ q', (s.step op).2.router.channels[n]? = some ⟨q', true, true⟩ ∧
      op.readBy n (s.step op).1 ++ q' = q ++ op.push?.toList := by
  rw [channels_step]
  cases op with
  | dispatch p =>
    refine ⟨q ++ [p], ?_, rfl⟩
    simp [Op.onChannels, hc, Channel.send]
  | subscribe =>
    have hlt : n < s.router.channels.length := (List.getElem?_eq_some_iff.mp hc).1
    refine ⟨q, ?_, by simp [Op.readBy, Op.push?]⟩
    rw [Op.onChannels, List.getElem?_append_left hlt, hc]
  | unsubscribe m =>
    have hm : m ≠ n := fun heq => hop (congrArg Op.unsubscribe heq)
    refine ⟨q, ?_, by simp [Op.readBy, Op.push?]⟩
    simp [Op.onChannels, hm, hc]
  | drain m =>
    -- whoever drains has read all that was queued
    by_cases hm : m = n
    · subst hm
      have hread : (s.step (.drain m)).1 = .pushes (some q) := by simp [step, Router.drain, hc]
      refine ⟨[], by simp [Op.onChannels, hc], ?_⟩
      rw [hread]
      simp [Op.readBy, Op.push?]
    · refine ⟨q, by simp [Op.onChannels, hm, hc], ?_⟩
      -- what others drain is no matter for this one
      rw [readBy_drain_of_ne hm]
      simp [Op.push?]
  | _ => exact ⟨q, hc, by simp [Op.readBy, Op.push?]⟩

/-- Nobody listens who did not before, but for a new subscriber. -/
theorem live_step {c' : Channel} {op : Op} (hc' : (op.onChannels s.router.channels)[n]? = some c')
    (hlive : c'.live = true) :
    (op = .subscribe ∧ n = s.router.channels.length) ∨
      op ≠ .unsubscribe n ∧ ∃ c, s.router.channels[n]? = some c ∧ c.live = true := by
  cases op with
  | dispatch p =>
    simp only [Op.onChannels, List.getElem?_map] at hc'
    obtain ⟨c, hc, rfl⟩ := Option.map_eq_some_iff.mp hc'
    refine .inr ⟨by simp, c, hc, ?_⟩
    unfold Channel.send at hlive
    split at hlive
    · split at hlive <;> exact hlive
    · exact hlive
  | subscribe =>
    rw [Op.onChannels, List.getElem?_append] at hc'
    split at hc'
    · exact .inr ⟨by simp, c', hc', hlive⟩
    · -- the new channel is the last one
      have hlt := (List.getElem?_eq_some_iff.mp hc').1
      simp only [List.length_singleton] at hlt
      exact .inl ⟨rfl, by omega⟩
  | unsubscribe m =>
    simp only [Op.onChannels, List.getElem?_modify] at hc'
    obtain ⟨c, hc, heq⟩ := Option.map_eq_some_iff.mp hc'
    by_cases hm : m = n
    · rw [if_pos hm] at heq
      rw [← heq] at hlive
      -- a channel that is given up is not live
      cases hlive
    · rw [if_neg hm] at heq
      refine .inr ⟨fun hop => hm (Op.unsubscribe.inj hop), c, hc, ?_⟩
      exact (congrArg Channel.live heq).trans hlive
  | drain m =>
    simp only [Op.onChannels, List.getElem?_modify] at hc'
    obtain ⟨c, hc, heq⟩ := Option.map_eq_some_iff.mp hc'
    refine .inr ⟨by simp, c, hc, ?_⟩
    rw [← heq] at hlive
    split at hlive
    · split at hlive <;> exact hlive
    · exact hlive
  | _ => exact .inr ⟨by simp, c', hc', hlive⟩

/-! ## Runs -/

section

variable (timing : PushTiming) (runtime : Bool) (ops : List Op)

theorem length_channels :
    ((new timing runtime).run ops).router.channels.length = ops.countP Op.subscribes := by
  induction ops using List.reverseRecOn with
  | nil => rfl
  | append_singleton ops op ih =>
    rw [run_concat, channels_step, length_onChannels, ih, List.countP_append, List.countP_singleton]

/-- Nobody has read a channel before its subscription. -/
theorem drained_before {n : Nat} (hn : ops.countP Op.subscribes ≤ n) :
    (new timing runtime).drained n ops = [] := by
  induction ops using List.reverseRecOn with
  | nil => rfl
  | append_singleton ops op ih =>
    rw [List.countP_append] at hn
    have hle : ops.countP Op.subscribes ≤ n := Nat.le_trans (Nat.le_add_right _ _) hn
    have hnone : ((new timing runtime).run ops).router.channels[n]? = none := by
      rw [List.getElem?_eq_none_iff, length_channels]
      exact hle
    rw [drained_concat, ih hle, readBy_of_none hnone, List.append_nil]

/-- **A subscriber that has listened has heard all pushes since.** -/
theorem hears_run {n : Nat} {later : List Op} (hl : Listens ops n later) :
    ∃ q, ((new timing runtime).run ops).router.channels[n]? = some ⟨q, true, true⟩ ∧
      (new timing runtime).drained n ops ++ q = later.filterMap Op.push? := by
  obtain ⟨earlier, rfl, hn, hstay⟩ := hl
  induction later using List.reverseRecOn with
  | nil =>
    refine ⟨[], ?_, ?_⟩
    · rw [run_concat, channels_step, Op.onChannels, hn, ← length_channels timing runtime earlier]
      exact List.getElem?_concat_length
    · -- nobody has read the channel before it was opened
      rw [drained_concat, drained_before timing runtime earlier (Nat.le_of_eq hn.symm)]
      rfl
  | append_singleton later op ih =>
    have hop : op ≠ .unsubscribe n := fun heq => hstay (by simp [heq])
    have hsplit : earlier ++ .subscribe :: (later ++ [op]) = (earlier ++ .subscribe :: later) ++ [op] := by simp
    obtain ⟨q, hq, hheard⟩ := ih fun hmem => hstay (List.mem_append_left _ hmem)
    obtain ⟨q', hq', hnext⟩ := hears_step hq hop
    refine ⟨q', ?_, ?_⟩
    · rw [hsplit, run_concat]
      exact hq'
    · calc (new timing runtime).drained n (earlier ++ .subscribe :: (later ++ [op])) ++ q'
          = (new timing runtime).drained n (earlier ++ .subscribe :: later) ++
              (op.readBy n (((new timing runtime).run (earlier ++ .subscribe :: later)).step op).1 ++ q') := by
            rw [hsplit, drained_concat, List.append_assoc]
        _ = later.filterMap Op.push? ++ op.push?.toList := by rw [hnext, ← List.append_assoc, hheard]
        _ = (later ++ [op]).filterMap Op.push? := by
            rw [List.filterMap_append]
            cases hpush : op.push? <;> simp [hpush]

/-- The channels of those who listen are live, and no others. -/
theorem live_iff_listens {n : Nat} :
    (∃ c, ((new timing runtime).run ops).router.channels[n]? = some c ∧ c.live = true) ↔
      ∃ later, Listens ops n later := by
  constructor
  · induction ops using List.reverseRecOn with
    | nil =>
      rintro ⟨c, hc, -⟩
      cases hc
    | append_singleton ops op ih =>
      rintro ⟨c, hc, hlive⟩
      rw [run_concat, channels_step] at hc
      rcases live_step hc hlive with ⟨rfl, hn⟩ | ⟨hop, hold⟩
      · rw [length_channels] at hn
        exact ⟨[], ops, rfl, hn, List.not_mem_nil⟩
      · obtain ⟨later, earlier, rfl, hn, hstay⟩ := ih hold
        refine ⟨later ++ [op], earlier, by simp, hn, fun hmem => ?_⟩
        rcases List.mem_append.mp hmem with hmem | hmem
        · exact hstay hmem
        · exact hop (List.mem_singleton.mp hmem).symm
  · rintro ⟨later, hl⟩
    obtain ⟨q, hq, -⟩ := hears_run timing runtime ops hl
    exact ⟨_, hq, rfl⟩

/-- The host sends to everybody who listens. -/
theorem attached_of_live : ∀ c ∈ ((new timing runtime).run ops).router.channels, c.live = true → c.attached = true := by
  intro c hmem hlive
  obtain ⟨n, hn⟩ := List.mem_iff_getElem?.mp hmem
  obtain ⟨later, hl⟩ := (live_iff_listens timing runtime ops).mp ⟨c, hn, hlive⟩
  obtain ⟨q, hq, -⟩ := hears_run timing runtime ops hl
  rw [hn] at hq
  rw [Option.some.inj hq]

end

/-- After a push, the host sends to nobody who has left. -/
theorem attached_send {c : Channel} (hc : c.live = true → c.attached = true) (p : Push) :
    (c.send p).attached = (c.send p).live := by
  obtain ⟨queue, live, attached⟩ := c
  cases live <;> cases attached <;> simp_all [Channel.send]

/-- Channels of a kind, by number. -/
theorem exists_numbers (cs : List Channel) (f : Channel → Bool) :
    ∃ ns : List Nat, ns.Nodup ∧ (∀ n, n ∈ ns ↔ ∃ c, cs[n]? = some c ∧ f c = true) ∧
      (cs.filter f).length = ns.length := by
  refine ⟨(cs.zipIdx.filter fun e => f e.1).map Prod.snd, ?_, fun n => ?_, ?_⟩
  · have hsub : ((cs.zipIdx.filter fun e => f e.1).map Prod.snd).Sublist (cs.zipIdx.map Prod.snd) :=
      List.Sublist.map _ List.filter_sublist
    refine hsub.nodup ?_
    rw [List.zipIdx_map_snd]
    exact List.nodup_range'
  · simp [List.mem_zipIdx_iff_getElem?]
  · rw [List.length_map, ← List.countP_eq_length_filter, ← List.countP_eq_length_filter]
    calc cs.countP f = (cs.zipIdx.map Prod.fst).countP f := by rw [List.zipIdx_map_fst]
      _ = cs.zipIdx.countP (fun e => f e.1) := List.countP_map

/-- **Every push reaches every subscriber.** Whatever else is done to the router, a subscriber that listens
has received exactly the pushes since it subscribed, each once and in order, as far as it has read them and
in what is left to read. Right after a push, the host sends to those who listen, and to nobody else. -/
theorem subscribers_hear (timing : PushTiming) (runtime : Bool) (ops : List Op) :
    let s := new timing runtime
    (∀ n later, Listens ops n later →
      ∃ rest, ((s.run ops).step (.drain n)).1 = .pushes (some rest) ∧
        s.drained n ops ++ rest = later.filterMap Op.push?) ∧
    (∀ earlier p, ops = earlier ++ [.dispatch p] →
      ∃ listeners : List Nat, listeners.Nodup ∧ (∀ n, n ∈ listeners ↔ ∃ later, Listens ops n later) ∧
        (s.run ops).router.subscriberCount = listeners.length) := by
  intro s
  refine ⟨fun n later hl => ?_, fun earlier p heq => ?_⟩
  · obtain ⟨q, hq, hheard⟩ := hears_run timing runtime ops hl
    exact ⟨q, by simp [s, step, Router.drain, hq], hheard⟩
  · obtain ⟨listeners, hnodup, hmem, hlength⟩ := exists_numbers (s.run ops).router.channels Channel.live
    refine ⟨listeners, hnodup, fun n => (hmem n).trans (live_iff_listens timing runtime ops), ?_⟩
    rw [← hlength, subscriberCount]
    congr 1
    -- the last push has found out who left, so that those it still goes to are those who listen
    refine List.filter_congr fun c hc => ?_
    rw [heq, run_concat, channels_step] at hc
    obtain ⟨old, hold, rfl⟩ := List.mem_map.mp hc
    exact attached_send (attached_of_live timing runtime earlier old hold) p

/-- Of two subscribers one leaves after a handler took a push, and the other hears both pushes. -/
theorem subscribers_hear_taken_push :
    let taken : Push := ⟨"theme", .null⟩
    let other : Push := ⟨"other", .null⟩
    let later : List Op := [.register "theme", .dispatch taken, .unsubscribe 0, .dispatch other]
    let s := (new .nextTick true).run ([.subscribe, .subscribe] ++ later)
    Listens ([.subscribe, .subscribe] ++ later) 1 later ∧ (s.step (.drain 1)).1 = .pushes (some [taken, other]) ∧
      ∃ listeners : List Nat, listeners.length = 1 ∧
        ∀ n, n ∈ listeners ↔ ∃ later', Listens ([.subscribe, .subscribe] ++ later) n later' := by
  intro taken other later s
  have hl : Listens ([.subscribe, .subscribe] ++ later) 1 later := ⟨[.subscribe], rfl, rfl, by simp [later]⟩
  obtain ⟨hheard, hcount⟩ := subscribers_hear .nextTick true ([.subscribe, .subscribe] ++ later)
  obtain ⟨rest, hrest, heq⟩ := hheard 1 later hl
  obtain ⟨listeners, -, hmem, hlength⟩ :=
    hcount [.subscribe, .subscribe, .register "theme", .dispatch taken, .unsubscribe 0] other rfl
  exact ⟨hl, hrest.trans (congrArg (Answer.pushes ∘ some) heq), listeners, hlength.symm, hmem⟩

end Session

end Hostlink.Router
