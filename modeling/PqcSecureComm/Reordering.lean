import PqcSecureComm.Completeness
import PqcSecureComm.Isolation
import PqcSecureComm.Restart

set_option autoImplicit false

/-! # Delivery over a network that reorders and duplicates

The signer numbers its messages without gap, the window of the verifier takes a number once and forgets
what lies `W` below the greatest one it took. Between the two, the commands of one signer lifetime come
out of the verifier at most once each, and those that come out are exactly the ones that arrive in time
before anything `W` numbers ahead of them does (`delivered_exactly_once`). If nothing overtakes, they come
out in the order of signing (`delivered_in_order`). A verifier that is started again has an empty window:
what is in time in two of its lives comes out twice (`published_over_restarts`). -/

namespace PqcSecureComm

open SlidingWindow

/-! ## The messages behind the published commands -/

/-- The messages of a pair whose command a run published on `/cmd_vel/verified`, in order. -/
def VerifierNode.verifiedMessages (P : Platform) (self : VerifierNode) (ds : List Delivery) (p : Pair) :
    List SignedTwist :=
  ((Machine.steps (VerifierNode.handle P) self ds).filter fun st =>
      st.pre.resultCode P st.input = .ok ∧ st.input.msg.pair = p).map fun st => st.input.msg

theorem VerifierNode.verifiedOf_handle (P : Platform) (self : VerifierNode) (d : Delivery) :
    verifiedOf (self.handle P d).2 =
      if self.resultCode P d = .ok then [d.msg.command] else [] := by
  rw [VerifierNode.handle_eq, verifiedOf_report, VerifierNode.verified_judge,
    VerifierNode.resultCode_eq]
  by_cases hok : (self.judge P d).code = .ok
  · rw [if_pos hok, if_pos hok]
    rfl
  · rw [if_neg hok, if_neg hok]
    rfl

/-- What is published for a pair are the commands of these messages. -/
theorem VerifierNode.verifiedTwistsFor_eq_map (P : Platform) (self : VerifierNode)
    (ds : List Delivery) (p : Pair) :
    self.verifiedTwistsFor P ds p = (self.verifiedMessages P ds p).map SignedTwist.command := by
  unfold VerifierNode.verifiedTwistsFor VerifierNode.verifiedMessages
  induction ds generalizing self with
  | nil => rfl
  | cons d ds ih =>
      rw [Machine.steps_cons, List.filter_cons, List.filter_cons]
      by_cases hp : d.msg.pair = p
      · by_cases hok : self.resultCode P d = .ok
        · rw [if_pos (by simpa using hp), if_pos (by simpa using ⟨hok, hp⟩), List.flatMap_cons, ih,
            VerifierNode.verifiedOf_handle, if_pos hok]
          rfl
        · rw [if_pos (by simpa using hp), if_neg (by simp [hok]), List.flatMap_cons, ih,
            VerifierNode.verifiedOf_handle, if_neg hok, List.nil_append]
      · rw [if_neg (by simpa using hp), if_neg (by simp [hp]), ih]

theorem VerifierNode.mem_verifiedMessages {P : Platform} {self : VerifierNode} {ds : List Delivery}
    {p : Pair} {msg : SignedTwist} :
    msg ∈ self.verifiedMessages P ds p ↔ ∃ before d after, ds = before ++ d :: after ∧ d.msg = msg ∧
      msg.pair = p ∧ (Machine.final (VerifierNode.handle P) self before).resultCode P d = .ok := by
  unfold VerifierNode.verifiedMessages
  simp only [List.mem_map, List.mem_filter, Machine.mem_steps_iff, decide_eq_true_eq]
  refine ⟨?_, ?_⟩
  · rintro ⟨st, ⟨⟨before, d, after, rfl, rfl⟩, hok, hp⟩, rfl⟩
    exact ⟨before, d, after, rfl, rfl, hp, hok⟩
  · rintro ⟨before, d, after, rfl, rfl, hp, hok⟩
    exact ⟨_, ⟨⟨before, d, after, rfl, rfl⟩, hok, hp⟩, rfl⟩

theorem VerifierNode.verifiedMessages_concat (P : Platform) (self : VerifierNode)
    (ds : List Delivery) (d : Delivery) (p : Pair) :
    self.verifiedMessages P (ds ++ [d]) p = self.verifiedMessages P ds p ++
      if (Machine.final (VerifierNode.handle P) self ds).resultCode P d = .ok ∧ d.msg.pair = p
      then [d.msg] else [] := by
  unfold VerifierNode.verifiedMessages
  rw [Machine.steps_append, List.filter_append, List.map_append, Machine.steps_cons, List.filter_cons]
  by_cases haccepts : (Machine.final (VerifierNode.handle P) self ds).resultCode P d = .ok ∧
      d.msg.pair = p
  · rw [if_pos haccepts, if_pos (by simpa using haccepts)]
    rfl
  · rw [if_neg haccepts, if_neg (by simpa using haccepts)]
    rfl

/-! ## When a message is accepted -/

/-- **Acceptance in terms of what was asked before**: the message gets to the replay check, nothing the
    window was asked about for its pair is in its way, and the publication does not raise. -/
theorem VerifierNode.resultCode_ok_iff {P : Platform} {node : VerifierNode}
    (hfresh : node.replayWindow.states = ∅) (before : List Delivery) (d : Delivery) :
    (Machine.final (VerifierNode.handle P) node before).resultCode P d = .ok ↔
      node.Consults P d ∧
      (∀ t ∈ node.askedFor P d.msg.pair before,
        Compatible node.replayWindow.windowSize t d.msg.sequence.toNat) ∧
      d.env.faults .publish = none := by
  rw [VerifierNode.resultCode_eq, VerifierNode.code_judge_eq_ok, VerifierNode.toVerifierConfig_final]
  refine and_congr_right fun hcall => and_congr_left fun _ => ?_
  have hreplay := VerifierNode.resultCode_ne_replay_iff hfresh before hcall
  rw [VerifierNode.resultCode_eq, ne_eq, VerifierNode.code_judge_eq_replay,
    VerifierNode.toVerifierConfig_final, and_iff_right hcall, Bool.not_eq_false] at hreplay
  exact hreplay

theorem VerifierConfig.mem_askedFor {P : Platform} {self : VerifierConfig} {p : Pair}
    {ds : List Delivery} {t : ℤ} :
    t ∈ self.askedFor P p ds ↔
      ∃ e ∈ ds, (self.Consults P e ∧ e.msg.pair = p) ∧ (e.msg.sequence.toNat : ℤ) = t := by
  unfold VerifierConfig.askedFor
  simp only [List.mem_map, List.mem_filter, decide_eq_true_eq, and_assoc]

/-- **At most once.** No sequence of a pair has its command published twice in a run. -/
theorem VerifierNode.nodup_verifiedMessages {P : Platform} {node : VerifierNode}
    (hfresh : node.replayWindow.states = ∅) (ds : List Delivery) (p : Pair) :
    ((node.verifiedMessages P ds p).map fun msg => msg.sequence.toNat).Nodup := by
  induction ds using List.reverseRecOn with
  | nil => exact List.nodup_nil
  | append_singleton ds d ih =>
      rw [VerifierNode.verifiedMessages_concat]
      by_cases haccepts : (Machine.final (VerifierNode.handle P) node ds).resultCode P d = .ok ∧
          d.msg.pair = p
      · obtain ⟨hok, rfl⟩ := haccepts
        obtain ⟨-, hasked, -⟩ := (VerifierNode.resultCode_ok_iff hfresh ds d).1 hok
        rw [if_pos ⟨hok, rfl⟩, List.map_append, List.nodup_append]
        refine ⟨ih, List.nodup_singleton _, ?_⟩
        intro n hn n' hn' heq
        obtain ⟨msg, hmsg, rfl⟩ := List.mem_map.1 hn
        rw [List.map_singleton, List.mem_singleton] at hn'
        -- the message published earlier got to the replay check, with the same sequence
        obtain ⟨before, e, after, rfl, rfl, hpair, hearlier⟩ := VerifierNode.mem_verifiedMessages.1 hmsg
        obtain ⟨hcall, -, -⟩ := (VerifierNode.resultCode_ok_iff hfresh before e).1 hearlier
        have hmem : (e.msg.sequence.toNat : ℤ) ∈
            node.askedFor P d.msg.pair (before ++ e :: after) :=
          VerifierConfig.mem_askedFor.2 ⟨e, by simp, ⟨hcall, hpair⟩, rfl⟩
        exact (hasked _ hmem).1 (by rw [heq, hn'])
      · rw [if_neg haccepts, List.append_nil]
        exact ih

/-! ## The messages of one lifetime -/

/-- The clock of the verifier is within the TTL of the message. -/
def Delivery.InTime (d : Delivery) : Prop :=
  d.env.nowNs ≤ d.sourceStampNs + d.msg.ttlMs.toNat * 1000000

instance (d : Delivery) : Decidable d.InTime := inferInstanceAs (Decidable (_ ≤ _))

/-- The message arrives in time, and before that no message `windowSize` or more numbers ahead of it
    does. -/
def ArrivesInWindow (windowSize : ℤ) (signed : List SignedTwist) (ds : List Delivery)
    (msg : SignedTwist) : Prop :=
  ∃ before d after, ds = before ++ d :: after ∧ d.msg = msg ∧ d.InTime ∧
    ∀ e ∈ before, e.msg ∈ signed → e.InTime →
      (e.msg.sequence.toNat : ℤ) < msg.sequence.toNat + windowSize

/-- No genuine message arrives in time behind one with a greater number. -/
def InOrder (signed : List SignedTwist) (ds : List Delivery) : Prop :=
  ds.Pairwise fun d e => d.msg ∈ signed ∧ d.InTime → e.msg ∈ signed ∧ e.InTime →
    d.msg.sequence.toNat ≤ e.msg.sequence.toNat

theorem SignerNode.pairwise_signedTwists (P : Platform) (params : SignerParams)
    (inputs : List RawTwist) :
    ((SignerNode.init P params).signedTwists P inputs).Pairwise fun msg msg' =>
      msg.sequence.toNat < msg'.sequence.toNat := by
  have hsequence := SignerNode.sequence_signedTwists P (SignerNode.init P params) inputs
  have hsorted : (((SignerNode.init P params).signedTwists P inputs).map fun msg =>
      msg.sequence.toNat).Pairwise (· < ·) := by
    rw [hsequence]
    exact List.pairwise_lt_range'
  exact List.pairwise_map.1 hsorted

/-- A number names one message of a lifetime. -/
theorem SignerNode.eq_of_sequence_eq {P : Platform} {params : SignerParams} {inputs : List RawTwist}
    {msg msg' : SignedTwist} (hmsg : msg ∈ (SignerNode.init P params).signedTwists P inputs)
    (hmsg' : msg' ∈ (SignerNode.init P params).signedTwists P inputs)
    (heq : msg.sequence.toNat = msg'.sequence.toNat) : msg = msg' := by
  have hnodup : (((SignerNode.init P params).signedTwists P inputs).map fun msg =>
      msg.sequence.toNat).Nodup := by
    rw [SignerNode.sequence_signedTwists]
    exact List.nodup_range'
  exact List.inj_on_of_nodup_map hnodup hmsg hmsg' heq

/-- The deliveries to a verifier of the messages of a matching signer: nothing raises in their handling,
    and no other message of the pair passes the checks. -/
structure Channel (P : Platform) (signer : SignerParams) (params : VerifierParams)
    (node : VerifierNode) (inputs : List RawTwist) (ds : List Delivery) : Prop where
  init : VerifierNode.init P params = .ok node
  matching : ∃ store, node.trustStore = some store ∧ Matching P signer params store
  quiet : ∀ d ∈ ds, d.msg.pair = (signer.sourceId, signer.keyId) → ∀ call, d.env.faults call = none
  genuine : ∀ d ∈ ds, d.msg.pair = (signer.sourceId, signer.keyId) → node.Live P d →
    d.msg ∈ (SignerNode.init P signer).signedTwists P inputs

namespace Channel

variable {P : Platform} {signer : SignerParams} {params : VerifierParams} {node : VerifierNode}
  {inputs : List RawTwist} {ds : List Delivery}

theorem fresh (h : Channel P signer params node inputs ds) : node.replayWindow.states = ∅ :=
  (VerifierNode.init_eq_ok h.init).1

/-- What gets to the replay check for the pair are its genuine messages that arrive in time. -/
theorem consults_iff (h : Channel P signer params node inputs ds) {d : Delivery} (hd : d ∈ ds) :
    node.Consults P d ∧ d.msg.pair = (signer.sourceId, signer.keyId) ↔
      d.msg ∈ (SignerNode.init P signer).signedTwists P inputs ∧ d.InTime := by
  obtain ⟨store, hstore, hmatch⟩ := h.matching
  refine ⟨?_, ?_⟩
  · rintro ⟨⟨hlive, -⟩, hpair⟩
    have hsigned := h.genuine d hd hpair hlive
    exact ⟨hsigned, (hmatch.live_iff h.init hstore hsigned (h.quiet d hd hpair)).1 hlive⟩
  · rintro ⟨hsigned, htime⟩
    have hpair := SignerNode.pair_of_mem_signedTwists hsigned
    have hquiet := h.quiet d hd hpair
    exact ⟨⟨(hmatch.live_iff h.init hstore hsigned hquiet).2 htime, hquiet .checkAndUpdate⟩, hpair⟩

/-- A genuine message is accepted iff it is in time and in the way of nothing that was. -/
theorem resultCode_ok_iff (h : Channel P signer params node inputs ds)
    {before after : List Delivery} {d : Delivery} (hds : ds = before ++ d :: after)
    (hsigned : d.msg ∈ (SignerNode.init P signer).signedTwists P inputs) :
    (Machine.final (VerifierNode.handle P) node before).resultCode P d = .ok ↔
      d.InTime ∧ ∀ e ∈ before, e.msg ∈ (SignerNode.init P signer).signedTwists P inputs → e.InTime →
        Compatible node.replayWindow.windowSize e.msg.sequence.toNat d.msg.sequence.toNat := by
  have hd : d ∈ ds := by simp [hds]
  have hpair := SignerNode.pair_of_mem_signedTwists hsigned
  have hmem : ∀ e ∈ before, e ∈ ds := by
    intro e he
    rw [hds]
    exact List.mem_append_left _ he
  have htime : node.Consults P d ↔ d.InTime := by
    have hcall := h.consults_iff hd
    rwa [and_iff_left hpair, and_iff_right hsigned] at hcall
  rw [VerifierNode.resultCode_ok_iff h.fresh, htime, and_iff_left (h.quiet d hd hpair .publish)]
  refine and_congr_right fun _ => ?_
  simp only [VerifierConfig.mem_askedFor, hpair]
  refine ⟨?_, ?_⟩
  · intro hall e he hesigned hetime
    exact hall _ ⟨e, he, (h.consults_iff (hmem e he)).2 ⟨hesigned, hetime⟩, rfl⟩
  · rintro hall t ⟨e, he, hcall, rfl⟩
    obtain ⟨hesigned, hetime⟩ := (h.consults_iff (hmem e he)).1 hcall
    exact hall e he hesigned hetime

theorem windowSize (h : Channel P signer params node inputs ds) :
    node.replayWindow.windowSize = params.replayWindowSize :=
  (VerifierNode.init_eq_ok h.init).2

theorem of_append {es : List Delivery} (h : Channel P signer params node inputs (ds ++ es)) :
    Channel P signer params node inputs ds where
  init := h.init
  matching := h.matching
  quiet d hd := h.quiet d (List.mem_append_left es hd)
  genuine d hd := h.genuine d (List.mem_append_left es hd)

/-- What is verified is genuine and arrived in time. -/
theorem exists_of_mem_verified (h : Channel P signer params node inputs ds) {msg : SignedTwist}
    (hmsg : msg ∈ node.verifiedMessages P ds (signer.sourceId, signer.keyId)) :
    msg ∈ (SignerNode.init P signer).signedTwists P inputs ∧ ∃ d ∈ ds, d.msg = msg ∧ d.InTime := by
  obtain ⟨before, d, after, rfl, rfl, hpair, hok⟩ := VerifierNode.mem_verifiedMessages.1 hmsg
  obtain ⟨hcall, -, -⟩ := (VerifierNode.resultCode_ok_iff h.fresh before d).1 hok
  obtain ⟨hsigned, htime⟩ := (h.consults_iff (by simp)).1 ⟨hcall, hpair⟩
  exact ⟨hsigned, d, by simp, rfl, htime⟩

/-- **A genuine message comes out iff it arrives in the window.** -/
theorem mem_verified_iff (h : Channel P signer params node inputs ds) {msg : SignedTwist} :
    msg ∈ node.verifiedMessages P ds (signer.sourceId, signer.keyId) ↔
      msg ∈ (SignerNode.init P signer).signedTwists P inputs ∧
        ArrivesInWindow params.replayWindowSize ((SignerNode.init P signer).signedTwists P inputs) ds
          msg := by
  refine ⟨?_, ?_⟩
  · intro hmsg
    obtain ⟨hsigned, -⟩ := h.exists_of_mem_verified hmsg
    obtain ⟨before, d, after, hds, rfl, -, hok⟩ := VerifierNode.mem_verifiedMessages.1 hmsg
    obtain ⟨htime, hcompatible⟩ := (h.resultCode_ok_iff hds hsigned).1 hok
    refine ⟨hsigned, before, d, after, hds, rfl, htime, ?_⟩
    intro e he hesigned hetime
    have hcut := (hcompatible e he hesigned hetime).2
    rw [h.windowSize] at hcut
    omega
  · rintro ⟨hsigned, before, d, after, rfl, rfl, htime, hahead⟩
    -- the first delivery of the message that is in time
    have hfound : ((before ++ [d]).find? fun e => e.msg = d.msg ∧ e.InTime).isSome := by
      rw [List.find?_isSome]
      exact ⟨d, by simp, by simpa using htime⟩
    obtain ⟨first, hfirst⟩ := Option.isSome_iff_exists.1 hfound
    obtain ⟨hsame, earlier, later, hsplit, hearlier⟩ := List.find?_eq_some_iff_append.1 hfirst
    obtain ⟨hmsg, hfirstTime⟩ := of_decide_eq_true hsame
    have hds : before ++ d :: after = earlier ++ first :: (later ++ after) := by
      rw [← List.singleton_append, ← List.append_assoc, hsplit, List.append_assoc, List.cons_append]
    refine VerifierNode.mem_verifiedMessages.2 ⟨earlier, first, later ++ after, hds, hmsg,
      SignerNode.pair_of_mem_signedTwists hsigned,
      (h.resultCode_ok_iff hds (hmsg ▸ hsigned)).2 ⟨hfirstTime, ?_⟩⟩
    intro e he hesigned hetime
    have hother : ¬ (e.msg = d.msg ∧ e.InTime) := by
      simpa only [Bool.not_eq_true', decide_eq_false_iff_not] using hearlier e he
    have hbefore : e ∈ before := by
      have hmem : e ∈ before ++ [d] := by
        rw [hsplit]
        exact List.mem_append_left _ he
      rcases List.mem_append.1 hmem with hold | hlast
      · exact hold
      · obtain rfl := List.mem_singleton.1 hlast
        exact absurd ⟨rfl, htime⟩ hother
    have hcut := hahead e hbefore hesigned hetime
    rw [hmsg, h.windowSize]
    refine ⟨fun heq => hother ⟨?_, hetime⟩, by omega⟩
    exact SignerNode.eq_of_sequence_eq hesigned hsigned (by exact_mod_cast heq)

/-- If nothing overtakes, messages come out in the order of their numbers. -/
theorem pairwise_verified (h : Channel P signer params node inputs ds)
    (horder : InOrder ((SignerNode.init P signer).signedTwists P inputs) ds) :
    (node.verifiedMessages P ds (signer.sourceId, signer.keyId)).Pairwise fun msg msg' =>
      msg.sequence.toNat < msg'.sequence.toNat := by
  have hle : (node.verifiedMessages P ds (signer.sourceId, signer.keyId)).Pairwise fun msg msg' =>
      msg.sequence.toNat ≤ msg'.sequence.toNat := by
    induction ds using List.reverseRecOn with
    | nil => exact List.Pairwise.nil
    | append_singleton ds d ih =>
        obtain ⟨hinit, -, hlast⟩ := List.pairwise_append.1 horder
        have hearlier := ih h.of_append hinit
        rw [VerifierNode.verifiedMessages_concat]
        by_cases haccepts : (Machine.final (VerifierNode.handle P) node ds).resultCode P d = .ok ∧
            d.msg.pair = (signer.sourceId, signer.keyId)
        · rw [if_pos haccepts, List.pairwise_append]
          refine ⟨hearlier, List.pairwise_singleton _ _, ?_⟩
          intro msg hmsg msg' hmsg'
          obtain ⟨hsigned, e, he, rfl, hetime⟩ := h.of_append.exists_of_mem_verified hmsg
          obtain ⟨hcall, -, -⟩ := (VerifierNode.resultCode_ok_iff h.fresh ds d).1 haccepts.1
          have hd := (h.consults_iff (by simp)).1 ⟨hcall, haccepts.2⟩
          rw [List.mem_singleton.1 hmsg']
          exact hlast e he d (List.mem_singleton_self d) ⟨hsigned, hetime⟩ hd
        · rw [if_neg haccepts, List.append_nil]
          exact hearlier
  have hnodup := VerifierNode.nodup_verifiedMessages (P := P) h.fresh ds (signer.sourceId, signer.keyId)
  exact (hle.and (List.pairwise_map.1 hnodup)).imp fun hboth => lt_of_le_of_ne hboth.1 hboth.2

end Channel

/-! ## What comes out -/

/-- **At most once, and exactly what arrives in the window.** However the network loses, repeats and
    reorders, as long as no call raises and no other message of the pair passes the checks: what is
    published for the pair are commands of the signer, each message's at most once, and those of the
    messages that arrive in time before anything `replay_window_size` or more ahead of them. So all of
    them come out, in some order, iff every message arrives like that. -/
theorem delivered_exactly_once {P : Platform} {signer : SignerParams} {params : VerifierParams}
    {node : VerifierNode} {inputs : List RawTwist} {ds : List Delivery}
    (h : Channel P signer params node inputs ds) :
    let signed := (SignerNode.init P signer).signedTwists P inputs
    let verified := node.verifiedMessages P ds (signer.sourceId, signer.keyId)
    node.verifiedTwistsFor P ds (signer.sourceId, signer.keyId) = verified.map SignedTwist.command ∧
    verified.Nodup ∧
    (∀ msg, msg ∈ verified ↔
      msg ∈ signed ∧ ArrivesInWindow params.replayWindowSize signed ds msg) ∧
    (verified.Perm signed ↔
      ∀ msg ∈ signed, ArrivesInWindow params.replayWindowSize signed ds msg) := by
  intro signed verified
  have hverified : verified.Nodup :=
    (VerifierNode.nodup_verifiedMessages (P := P) h.fresh ds (signer.sourceId, signer.keyId)).of_map _
  have hsigned : signed.Nodup :=
    (SignerNode.pairwise_signedTwists P signer inputs).imp fun hlt heq => (heq ▸ hlt).false
  refine ⟨VerifierNode.verifiedTwistsFor_eq_map P node ds _, hverified, fun msg => h.mem_verified_iff, ?_⟩
  rw [List.perm_ext_iff_of_nodup hverified hsigned]
  refine forall_congr' fun msg => ?_
  rw [h.mem_verified_iff]
  exact and_iff_left_iff_imp

/-- A second command, a tenth of a second after the first. -/
def RawTwist.demoNext : RawTwist := ⟨RawTwist.demoRestart.msg, .quiet 5100000000⟩

/-- What the demo signer makes of it. -/
def SignedTwist.demoNext : SignedTwist :=
  { SignedTwist.demoRestart with
    headerStamp := ⟨5, 100000000⟩
    sourceStamp := ⟨5, 100000000⟩
    sequence := 1 }

theorem signedTwists_demoNext :
    (SignerNode.init .demo .demo).signedTwists .demo [.demo, .demoNext] =
      [.demo, .demoNext] := by decide

/-- Deliveries of the two messages, in any order and however often, with a quiet clock. -/
theorem Channel.demo {ds : List Delivery}
    (hds : ∀ d ∈ ds, (d.msg = .demo ∨ d.msg = .demoNext) ∧ ∃ ns, d.env = .quiet ns) :
    Channel .demo .demo .demo .demo [.demo, .demoNext] ds where
  init := VerifierNode.init_demo
  matching := by
    have hentry : TrustStore.demo.Enables (PyStr.ofString "demo_source",
        PyStr.ofString "demo_mldsa44_key_1") .demo := ⟨by rfl, by rfl, by rfl⟩
    exact ⟨.demo, rfl, Matching.of_declared _ _ hentry (by rfl) (by rfl) (Platform.keyPair_demo 1)⟩
  quiet := by
    intro d hd _ call
    obtain ⟨-, ns, henv⟩ := hds d hd
    rw [henv]
    rfl
  genuine := by
    intro d hd _ _
    rw [signedTwists_demoNext]
    simpa using (hds d hd).1

/-- The second message arrives first, and once more behind the first one. -/
def demoReordered : List Delivery :=
  [⟨.demoNext, .quiet 5100001000⟩, ⟨.demo, .quiet 5100002000⟩, ⟨.demoNext, .quiet 5100003000⟩]

/-- Both messages come out, each once. -/
theorem delivered_exactly_once_demo :
    let verified := VerifierNode.demo.verifiedMessages .demo demoReordered
      (SignerParams.demo.sourceId, SignerParams.demo.keyId)
    VerifierNode.demo.verifiedTwistsFor .demo demoReordered
        (SignerParams.demo.sourceId, SignerParams.demo.keyId) = verified.map SignedTwist.command ∧
      verified.Nodup ∧ verified.Perm [.demo, .demoNext] := by
  intro verified
  have hchannel : Channel .demo .demo .demo .demo [.demo, .demoNext] demoReordered := by
    refine Channel.demo ?_
    intro d hd
    simp only [demoReordered, List.mem_cons, List.not_mem_nil, or_false] at hd
    rcases hd with rfl | rfl | rfl
    · exact ⟨Or.inr rfl, _, rfl⟩
    · exact ⟨Or.inl rfl, _, rfl⟩
    · exact ⟨Or.inr rfl, _, rfl⟩
  obtain ⟨hcommands, hnodup, -, hall⟩ := delivered_exactly_once hchannel
  refine ⟨hcommands, hnodup, ?_⟩
  rw [← signedTwists_demoNext]
  refine hall.2 fun msg hmsg => ?_
  rw [signedTwists_demoNext, List.mem_cons, List.mem_singleton] at hmsg
  rcases hmsg with rfl | rfl
  · -- the message it is overtaken by is one number ahead
    refine ⟨[⟨.demoNext, .quiet 5100001000⟩], ⟨.demo, .quiet 5100002000⟩, _, rfl, rfl, by decide, ?_⟩
    intro e he _ _
    obtain rfl := List.mem_singleton.1 he
    decide
  · exact ⟨[], ⟨.demoNext, .quiet 5100001000⟩, _, rfl, rfl, by decide, by simp⟩

/-- **In order over a network that keeps it.** If no genuine message arrives in time behind one with a
    greater number, the commands published for the pair are those of the messages that arrive in time at
    all, in the order of signing, however often each one arrives. -/
theorem delivered_in_order {P : Platform} {signer : SignerParams} {params : VerifierParams}
    {node : VerifierNode} {inputs : List RawTwist} {ds : List Delivery}
    (h : Channel P signer params node inputs ds)
    (horder : InOrder ((SignerNode.init P signer).signedTwists P inputs) ds) :
    node.verifiedTwistsFor P ds (signer.sourceId, signer.keyId) =
      (((SignerNode.init P signer).signedTwists P inputs).filter fun msg =>
        ds.any fun d => d.msg = msg ∧ d.InTime).map SignedTwist.command := by
  rw [VerifierNode.verifiedTwistsFor_eq_map]
  refine congrArg _ (List.Perm.eq_of_pairwise (fun msg msg' _ _ h₁ h₂ => absurd h₁ h₂.asymm)
    (h.pairwise_verified horder) ((SignerNode.pairwise_signedTwists P signer inputs).filter _) ?_)
  refine (List.perm_ext_iff_of_nodup ?_ ?_).2 fun msg => ?_
  · exact (h.pairwise_verified horder).imp fun hlt heq => (heq ▸ hlt).false
  · exact ((SignerNode.pairwise_signedTwists P signer inputs).filter _).imp fun hlt heq =>
      (heq ▸ hlt).false
  rw [List.mem_filter, List.any_eq_true]
  refine ⟨?_, ?_⟩
  · intro hmsg
    obtain ⟨hsigned, d, hd, hboth⟩ := h.exists_of_mem_verified hmsg
    exact ⟨hsigned, d, hd, by simpa using hboth⟩
  · rintro ⟨hsigned, d, hd, hboth⟩
    obtain ⟨rfl, htime⟩ := of_decide_eq_true hboth
    obtain ⟨before, after, rfl⟩ := List.append_of_mem hd
    refine h.mem_verified_iff.2 ⟨hsigned, before, d, after, rfl, rfl, htime, ?_⟩
    intro e he hesigned hetime
    have hle := (List.pairwise_append.1 horder).2.2 e he d (by simp) ⟨hesigned, hetime⟩
      ⟨hsigned, htime⟩
    have hpos := node.replayWindow.windowSize_pos
    rw [h.windowSize] at hpos
    omega

theorem delivered_in_order_demo :
    VerifierNode.demo.verifiedTwistsFor .demo
        [⟨.demo, .quiet 5000001000⟩, ⟨.demo, .quiet 5000002000⟩, ⟨.demoNext, .quiet 5100001000⟩]
        (SignerParams.demo.sourceId, SignerParams.demo.keyId) =
      (((SignerNode.init .demo .demo).signedTwists .demo [.demo, .demoNext]).filter fun msg =>
        ([⟨.demo, .quiet 5000001000⟩, ⟨.demo, .quiet 5000002000⟩,
          ⟨.demoNext, .quiet 5100001000⟩] : List Delivery).any fun d =>
            d.msg = msg ∧ d.InTime).map SignedTwist.command := by
  refine delivered_in_order (Channel.demo ?_) ?_
  · intro d hd
    simp only [List.mem_cons, List.not_mem_nil, or_false] at hd
    rcases hd with rfl | rfl | rfl
    · exact ⟨Or.inl rfl, _, rfl⟩
    · exact ⟨Or.inl rfl, _, rfl⟩
    · exact ⟨Or.inr rfl, _, rfl⟩
  · have hnumbers : ([⟨.demo, .quiet 5000001000⟩, ⟨.demo, .quiet 5000002000⟩,
        ⟨.demoNext, .quiet 5100001000⟩] : List Delivery).Pairwise fun d e =>
          d.msg.sequence.toNat ≤ e.msg.sequence.toNat := by decide
    exact hnumbers.imp fun hle _ _ => hle

/-! ## A verifier that is started again -/

/-- The messages of a pair whose command was published in one life of the verifier after the other; each
    life begins with an empty window. -/
def VerifierNode.verifiedOver (P : Platform) (self : VerifierNode) (lives : List (List Delivery)) (p : Pair) :
    List SignedTwist :=
  lives.flatMap fun ds => self.verifiedMessages P ds p

/-- No stamp is further ahead of the clock than this. -/
def StampsAhead (ahead : ℤ) (ds : List Delivery) : Prop := ∀ d ∈ ds, d.sourceStampNs ≤ d.env.nowNs + ahead

instance (ahead : ℤ) (ds : List Delivery) : Decidable (StampsAhead ahead ds) :=
  inferInstanceAs (Decidable (∀ d ∈ ds, _ ≤ _))

/-- Between the lives, every message of the earlier one has expired, even one with a stamp that far
    ahead. -/
def LongDown (ahead : ℤ) (ds ds' : List Delivery) : Prop :=
  ∀ d ∈ ds, ∀ e ∈ ds', d.env.nowNs + ahead + d.msg.ttlMs.toNat * 1000000 < e.env.nowNs

instance (ahead : ℤ) (ds ds' : List Delivery) : Decidable (LongDown ahead ds ds') :=
  inferInstanceAs (Decidable (∀ d ∈ ds, ∀ e ∈ ds', _ < _))

theorem ArrivesInWindow.exists_inTime {windowSize : ℤ} {signed : List SignedTwist} {ds : List Delivery}
    {msg : SignedTwist} (h : ArrivesInWindow windowSize signed ds msg) :
    ∃ d ∈ ds, d.msg = msg ∧ d.InTime := by
  obtain ⟨before, d, after, rfl, rfl, htime, -⟩ := h
  exact ⟨d, by simp, rfl, htime⟩

/-- What was in time in the earlier life is not in the later one. -/
theorem LongDown.not_inTime {ahead : ℤ} {ds ds' : List Delivery} (h : LongDown ahead ds ds')
    (hstamps : StampsAhead ahead ds) {d e : Delivery} (hd : d ∈ ds) (he : e ∈ ds') (hmsg : d.msg = e.msg) :
    ¬ e.InTime := by
  intro htime
  have hdown := h d hd e he
  have hahead := hstamps d hd
  unfold Delivery.InTime at htime
  unfold Delivery.sourceStampNs at htime hahead
  rw [hmsg] at hdown hahead
  omega

/-- **At most once over restarts of the verifier.** Over any number of lives, what is published are the
    commands of the messages that arrive in the window in one of them, and a message comes out twice iff
    it does so in two lives. That cannot happen if the verifier stays down until everything it received
    has expired. -/
theorem published_over_restarts {P : Platform} {signer : SignerParams} {params : VerifierParams}
    {node : VerifierNode} {inputs : List RawTwist} {lives : List (List Delivery)}
    (h : ∀ ds ∈ lives, Channel P signer params node inputs ds) :
    let signed := (SignerNode.init P signer).signedTwists P inputs
    let published := node.verifiedOver P lives (signer.sourceId, signer.keyId)
    let arrives := ArrivesInWindow params.replayWindowSize signed
    (∀ msg, msg ∈ published ↔ msg ∈ signed ∧ ∃ ds ∈ lives, arrives ds msg) ∧
    (published.Nodup ↔
      lives.Pairwise fun ds ds' => ∀ msg ∈ signed, arrives ds msg → ¬ arrives ds' msg) ∧
    ∀ ahead, (∀ ds ∈ lives, StampsAhead ahead ds) → lives.Pairwise (LongDown ahead) →
      published.Nodup := by
  intro signed published arrives
  have honce : published.Nodup ↔
      lives.Pairwise fun ds ds' => ∀ msg ∈ signed, arrives ds msg → ¬ arrives ds' msg := by
    unfold published VerifierNode.verifiedOver
    rw [List.nodup_flatMap, and_iff_right fun ds hds =>
      (VerifierNode.nodup_verifiedMessages (P := P) (h ds hds).fresh ds _).of_map _]
    refine List.Pairwise.iff_of_mem fun {ds ds'} hds hds' => ?_
    unfold Function.onFun List.Disjoint
    refine forall_congr' fun msg => ?_
    rw [(h ds hds).mem_verified_iff, (h ds' hds').mem_verified_iff]
    exact ⟨fun hdisjoint hsigned harrives harrives' => hdisjoint ⟨hsigned, harrives⟩ ⟨hsigned, harrives'⟩,
      fun honly hfirst hsecond => honly hfirst.1 hfirst.2 hsecond.2⟩
  refine ⟨fun msg => ?_, honce, fun ahead hstamps hdown => honce.2 ?_⟩
  · unfold published VerifierNode.verifiedOver
    rw [List.mem_flatMap]
    refine ⟨?_, ?_⟩
    · rintro ⟨ds, hds, hmsg⟩
      obtain ⟨hsigned, harrives⟩ := (h ds hds).mem_verified_iff.1 hmsg
      exact ⟨hsigned, ds, hds, harrives⟩
    · rintro ⟨hsigned, ds, hds, harrives⟩
      exact ⟨ds, hds, (h ds hds).mem_verified_iff.2 ⟨hsigned, harrives⟩⟩
  · refine hdown.imp_of_mem fun {ds ds'} hds hds' hlong msg _ harrives harrives' => ?_
    obtain ⟨d, hd, hmsg, -⟩ := harrives.exists_inTime
    obtain ⟨e, he, hmsg', htime⟩ := harrives'.exists_inTime
    exact hlong.not_inTime (hstamps ds hds) hd he (hmsg.trans hmsg'.symm) htime

/-- The first message, delivered in two lives: half a second apart it comes out twice, a second apart
    only once. -/
theorem published_over_restarts_demo :
    let again := fun ns => [[(⟨.demo, .quiet 5000001000⟩ : Delivery)], [⟨.demo, .quiet ns⟩]]
    let pair := (SignerParams.demo.sourceId, SignerParams.demo.keyId)
    ¬ (VerifierNode.demo.verifiedOver .demo (again 5500000000) pair).Nodup ∧
      (VerifierNode.demo.verifiedOver .demo (again 6000000000) pair).Nodup := by
  intro again pair
  have hchannel : ∀ ns, ∀ ds ∈ again ns, Channel .demo .demo .demo .demo [.demo, .demoNext] ds := by
    intro ns ds hds
    refine Channel.demo fun d hd => ?_
    simp only [again, List.mem_cons, List.not_mem_nil, or_false] at hds
    rcases hds with rfl | rfl
    · rw [List.mem_singleton.1 hd]
      exact ⟨Or.inl rfl, _, rfl⟩
    · rw [List.mem_singleton.1 hd]
      exact ⟨Or.inl rfl, _, rfl⟩
  refine ⟨by decide, ?_⟩
  obtain ⟨-, -, hdown⟩ := published_over_restarts (hchannel 6000000000)
  exact hdown 0 (by decide) (by decide)

end PqcSecureComm
