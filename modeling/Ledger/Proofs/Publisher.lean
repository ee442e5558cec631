import Ledger.Publisher

namespace Ledger.Publisher

/-- A call of a publisher. -/
inductive Call where
  | setOnline (online : Bool)
  | failNext (count : Nat)
  | subscribe (name : String)
  | unsubscribe (name : String)
  | take (name : String)
  | publish (m : Message)

/-- A call that has been made, with what came of it. -/
inductive Occurrence where
  | setOnline (online : Bool)
  | failNext (count : Nat)
  | subscribe (name : String)
  | unsubscribe (name : String)
  | take (name : String) (messages : List Message)
  | publish (m : Message) (answer : Except PublishError Unit)

namespace Occurrence

def switch? : Occurrence → Option Bool
  | setOnline online => some online
  | _ => none

def accepted? : Occurrence → Option Message
  | publish m (.ok ()) => some m
  | _ => none

def isRefusal : Occurrence → Bool
  | publish _ (.error _) => true
  | _ => false

/-- The messages that the subscriber of the given name took. -/
def takenBy (name : String) : Occurrence → List Message
  | take other messages => if other = name then messages else []
  | _ => []

/-- Whether the subscriber of the given name leaves; another one of that name makes it leave too. -/
def Ends (name : String) (o : Occurrence) : Prop :=
  o = subscribe name ∨ o = unsubscribe name

end Occurrence

/-- Whether a publisher is online after what has happened, if it was or was not before. -/
def switched (online : Bool) (h : List Occurrence) : Bool :=
  h.foldl (fun online o => o.switch?.getD online) online

/-- How many messages were refused while the publisher was online. -/
def injected (online : Bool) : List Occurrence → Nat
  | [] => 0
  | o :: rest =>
      (if online && o.isRefusal then 1 else 0) + injected (o.switch?.getD online) rest

def accepted (h : List Occurrence) : List Message :=
  h.filterMap Occurrence.accepted?

def taken (name : String) (h : List Occurrence) : List Message :=
  h.flatMap (Occurrence.takenBy name)

/-- Makes a call. -/
def apply (p : Publisher) : Call → Publisher × Occurrence
  | .setOnline online => (p.setOnline online, .setOnline online)
  | .failNext count => (p.failNext count, .failNext count)
  | .subscribe name => (p.subscribe name, .subscribe name)
  | .unsubscribe name => (p.unsubscribe name, .unsubscribe name)
  | .take name => (p.take name, .take name ((p.inbox? name).getD []))
  | .publish m => ((p.publish m).1, .publish m (p.publish m).2)

/-- A publisher with all that has happened to it. -/
structure Session where
  publisher : Publisher := {}
  history : List Occurrence := []

namespace Session

def call (s : Session) (c : Call) : Session :=
  ⟨(s.publisher.apply c).1, s.history ++ [(s.publisher.apply c).2]⟩

/-- Makes calls one after the other. -/
def run (s : Session) (calls : List Call) : Session :=
  calls.foldl call s

end Session

variable {p : Publisher} {m : Message} {o : Occurrence} {h : List Occurrence} {online : Bool}
  {name other : String}

theorem switched_concat (online : Bool) (h : List Occurrence) (o : Occurrence) :
    switched online (h ++ [o]) = o.switch?.getD (switched online h) := by
  rw [switched, List.foldl_append]
  rfl

theorem switched_append (online : Bool) (h later : List Occurrence) :
    switched online (h ++ later) = switched (switched online h) later :=
  List.foldl_append

theorem injected_concat (online : Bool) (h : List Occurrence) (o : Occurrence) :
    injected online (h ++ [o]) =
      injected online h + if switched online h && o.isRefusal then 1 else 0 := by
  induction h generalizing online with
  | nil => simp [injected, switched]
  | cons first rest ih =>
      rw [List.cons_append, injected, ih, injected, Nat.add_assoc]
      rfl

theorem accepted_concat (h : List Occurrence) (o : Occurrence) :
    accepted (h ++ [o]) = accepted h ++ o.accepted?.toList := by
  rw [accepted, List.filterMap_append]
  cases hmessage : o.accepted? with
  | none => simp [accepted, hmessage]
  | some m => simp [accepted, hmessage]

theorem taken_concat (name : String) (h : List Occurrence) (o : Occurrence) :
    taken name (h ++ [o]) = taken name h ++ o.takenBy name := by
  simp [taken]

theorem append_cons_of_concat {before after : List Occurrence} {x : Occurrence}
    (heq : h ++ [o] = before ++ x :: after) :
    (after = [] ∧ h = before ∧ o = x) ∨
      ∃ earlier, after = earlier ++ [o] ∧ h = before ++ x :: earlier := by
  rcases List.eq_nil_or_concat after with rfl | ⟨earlier, last, rfl⟩
  · obtain ⟨hbefore, hlast⟩ := List.append_inj' heq rfl
    exact .inl ⟨rfl, hbefore, List.singleton_inj.mp hlast⟩
  · rw [List.concat_eq_append, ← List.cons_append, ← List.append_assoc] at heq
    obtain ⟨hbefore, hlast⟩ := List.append_inj' heq rfl
    cases hlast
    exact .inr ⟨earlier, List.concat_eq_append, hbefore⟩

theorem publish_of_offline (h : p.online = false) (m : Message) :
    p.publish m = (p, .error (rejection m)) := by
  simp [publish, h]

theorem publish_of_no_failures (honline : p.online = true) (hfailures : p.failures = 0)
    (m : Message) : p.publish m = (p.accept m, .ok ()) := by
  simp [publish, honline, hfailures]

theorem publish_of_failures {left : Nat} (honline : p.online = true)
    (hfailures : p.failures = left + 1) (m : Message) :
    p.publish m = ({ p with failures := left }, .error (rejection m)) := by
  simp [publish, honline, hfailures]

theorem publish_outcomes (p : Publisher) (m : Message) :
    (p.online = false ∧ p.publish m = (p, .error (rejection m))) ∨
      (p.online = true ∧ p.failures = 0 ∧ p.publish m = (p.accept m, .ok ())) ∨
      ∃ left, p.online = true ∧ p.failures = left + 1 ∧
        p.publish m = ({ p with failures := left }, .error (rejection m)) := by
  rcases Bool.eq_false_or_eq_true p.online with honline | hoffline
  · by_cases hfailures : p.failures = 0
    · exact .inr (.inl ⟨honline, hfailures, publish_of_no_failures honline hfailures m⟩)
    · obtain ⟨left, hleft⟩ := Nat.exists_eq_succ_of_ne_zero hfailures
      exact .inr (.inr ⟨left, honline, hleft, publish_of_failures honline hleft m⟩)
  · exact .inl ⟨hoffline, publish_of_offline hoffline m⟩

theorem publish_ok_iff (p : Publisher) (m : Message) :
    (p.publish m).2 = .ok () ↔ p.online = true ∧ p.failures = 0 := by
  rcases p.publish_outcomes m with ⟨hoffline, heq⟩ | ⟨honline, hnone, heq⟩ |
    ⟨left, honline, hsome, heq⟩
  · simp [heq, hoffline]
  · simp [heq, honline, hnone]
  · simp [heq, hsome]

section Listeners

/-- The subscribers of the given name who have not left. -/
def listeners (p : Publisher) (name : String) : List Subscriber :=
  p.subscribers.filter (·.hearsAs name)

theorem inbox?_eq (p : Publisher) (name : String) :
    p.inbox? name = (p.listeners name).head?.map (·.inbox) := by
  rw [inbox?, listeners, List.head?_filter]

theorem eq_of_hearsAs {s : Subscriber} (hname : s.hearsAs name = true)
    (hother : s.hearsAs other = true) : name = other := by
  simp only [Subscriber.hearsAs, Bool.and_eq_true, decide_eq_true_eq] at hname hother
  exact hname.2.symm.trans hother.2

theorem listeners_unsubscribe (p : Publisher) (name other : String) :
    (p.unsubscribe name).listeners other = if name = other then [] else p.listeners other := by
  have hleft (s : Subscriber) :
      ({ s with listening := false } : Subscriber).hearsAs other = false := rfl
  simp only [listeners, unsubscribe]
  induction p.subscribers with
  | nil => exact (ite_self []).symm
  | cons s rest ih =>
      rw [List.map_cons, List.filter_cons, ih, List.filter_cons]
      by_cases hname : name = other
      · subst hname
        cases hhears : s.hearsAs name with
        | true => simp [hleft]
        | false => simp [hhears]
      · cases hhears : s.hearsAs name with
        | true =>
            have hother : s.hearsAs other = false :=
              Bool.eq_false_iff.mpr fun hother => hname (eq_of_hearsAs hhears hother)
            simp [hleft, hother, hname]
        | false => simp [hname]

theorem listeners_subscribe (p : Publisher) (name other : String) :
    (p.subscribe name).listeners other =
      if name = other then [{ name }] else p.listeners other := by
  have hleft := listeners_unsubscribe p name other
  simp only [listeners, subscribe, List.filter_append] at hleft ⊢
  rw [hleft]
  by_cases hname : name = other
  · simp [Subscriber.hearsAs, hname]
  · simp [Subscriber.hearsAs, hname]

theorem listeners_take (p : Publisher) (name other : String) :
    (p.take name).listeners other =
      (p.listeners other).map fun s => if s.hearsAs name then { s with inbox := [] } else s := by
  simp only [listeners, take, List.filter_map]
  congr 2
  funext s
  simp only [Function.comp_apply]
  split <;> rfl

/-- A message is sent to everyone who listens, whoever has left before. -/
theorem listeners_accept (p : Publisher) (m : Message) (name : String) :
    (p.accept m).listeners name =
      (p.listeners name).map fun s => { s with inbox := s.inbox ++ [m] } := by
  simp only [listeners, accept]
  induction p.subscribers with
  | nil => rfl
  | cons s rest ih =>
      cases hlistening : s.listening with
      | true =>
          have hsend : s.send? m = some { s with inbox := s.inbox ++ [m] } := if_pos hlistening
          have hkept : ({ s with inbox := s.inbox ++ [m] } : Subscriber).hearsAs name =
              s.hearsAs name := rfl
          simp only [List.filterMap_cons, hsend, List.filter_cons, ih, hkept]
          split <;> rfl
      | false =>
          have hsend : s.send? m = none := by simp [Subscriber.send?, hlistening]
          have hhears : s.hearsAs name = false := by simp [Subscriber.hearsAs, hlistening]
          simp only [List.filterMap_cons, hsend, List.filter_cons, ih, hhears, Bool.false_eq_true,
            if_false]

theorem listening_of_mem_accept (p : Publisher) (m : Message) :
    ∀ s ∈ (p.accept m).subscribers, s.listening = true := by
  intro s hs
  obtain ⟨old, -, hsend⟩ := List.mem_filterMap.mp hs
  obtain ⟨hlistening, ⟨⟩⟩ := Option.ite_none_right_eq_some.mp hsend
  exact hlistening

end Listeners

section Apply

variable {c : Call}

theorem online_apply (p : Publisher) (c : Call) :
    (p.apply c).1.online = ((p.apply c).2.switch?).getD p.online := by
  cases c with
  | publish m =>
      rcases p.publish_outcomes m with ⟨-, heq⟩ | ⟨-, -, heq⟩ | ⟨left, -, -, heq⟩
      all_goals
        simp only [apply, heq]
        rfl
  | _ => rfl

theorem published_apply (p : Publisher) (c : Call) :
    (p.apply c).1.published = p.published ++ (p.apply c).2.accepted?.toList := by
  cases c with
  | publish m =>
      rcases p.publish_outcomes m with ⟨-, heq⟩ | ⟨-, -, heq⟩ | ⟨left, -, -, heq⟩
      · simp [apply, heq, Occurrence.accepted?]
      · simp [apply, heq, Occurrence.accepted?, accept]
      · simp [apply, heq, Occurrence.accepted?]
  | _ => exact (List.append_nil _).symm

theorem failures_apply (h : ∀ count, (p.apply c).2 ≠ .failNext count) :
    (p.apply c).1.failures + (if p.online && (p.apply c).2.isRefusal then 1 else 0) =
      p.failures := by
  cases c with
  | failNext count => exact absurd rfl (h count)
  | publish m =>
      rcases p.publish_outcomes m with ⟨honline, heq⟩ | ⟨honline, -, heq⟩ |
        ⟨left, honline, hfailures, heq⟩
      · simp [apply, heq, honline]
      · simp [apply, heq, Occurrence.isRefusal, accept]
      · simp [apply, heq, honline, Occurrence.isRefusal, hfailures]
  | _ => simp [apply, Occurrence.isRefusal, setOnline, subscribe, unsubscribe, take]

theorem failures_add_injected {start : Bool} (honline : p.online = switched start h)
    (hkept : ∀ count, (p.apply c).2 ≠ .failNext count) :
    (p.apply c).1.failures + injected start (h ++ [(p.apply c).2]) =
      p.failures + injected start h := by
  have hspent := failures_apply hkept
  rw [injected_concat, ← honline]
  omega

theorem listeners_apply_of_subscribe (h : (p.apply c).2 = .subscribe name) :
    (p.apply c).1.listeners name = [{ name }] := by
  cases c with
  | subscribe =>
      cases h
      rw [apply, listeners_subscribe, if_pos rfl]
  | _ => cases h

theorem listeners_apply_of_unsubscribe (h : (p.apply c).2 = .unsubscribe name) :
    (p.apply c).1.listeners name = [] := by
  cases c with
  | unsubscribe =>
      cases h
      rw [apply, listeners_unsubscribe, if_pos rfl]
  | _ => cases h

theorem listeners_apply_of_nil (h : p.listeners name = [])
    (hnew : (p.apply c).2 ≠ .subscribe name) : (p.apply c).1.listeners name = [] := by
  cases c with
  | setOnline | failNext => exact h
  | subscribe other =>
      have hname : other ≠ name := fun heq => hnew (heq ▸ rfl)
      rw [apply, listeners_subscribe, if_neg hname, h]
  | unsubscribe other => rw [apply, listeners_unsubscribe, h, ite_self]
  | take other => rw [apply, listeners_take, h, List.map_nil]
  | publish m =>
      rcases p.publish_outcomes m with ⟨-, heq⟩ | ⟨-, -, heq⟩ | ⟨left, -, -, heq⟩
      · simp only [apply, heq, h]
      · simp only [apply, heq, listeners_accept, h, List.map_nil]
      · simp only [apply, heq]
        exact h

theorem listeners_apply_of_singleton {inbox : List Message}
    (h : p.listeners name = [⟨name, inbox, true⟩]) (hstays : ¬(p.apply c).2.Ends name) :
    ∃ inbox', (p.apply c).1.listeners name = [⟨name, inbox', true⟩] ∧
      (p.apply c).2.takenBy name ++ inbox' = inbox ++ (p.apply c).2.accepted?.toList := by
  cases c with
  | setOnline | failNext => exact ⟨inbox, h, (List.append_nil _).symm⟩
  | subscribe other =>
      have hname : other ≠ name := fun heq => hstays (.inl (heq ▸ rfl))
      refine ⟨inbox, ?_, (List.append_nil _).symm⟩
      rw [apply, listeners_subscribe, if_neg hname, h]
  | unsubscribe other =>
      have hname : other ≠ name := fun heq => hstays (.inr (heq ▸ rfl))
      refine ⟨inbox, ?_, (List.append_nil _).symm⟩
      rw [apply, listeners_unsubscribe, if_neg hname, h]
  | take other =>
      by_cases hname : other = name
      · subst hname
        refine ⟨[], ?_, ?_⟩
        · simp [apply, listeners_take, h, Subscriber.hearsAs]
        · simp [apply, inbox?_eq, h, Occurrence.takenBy, Occurrence.accepted?]
      · refine ⟨inbox, ?_, ?_⟩
        · simp [apply, listeners_take, h, Subscriber.hearsAs, Ne.symm hname]
        · simp [apply, Occurrence.takenBy, Occurrence.accepted?, hname]
  | publish m =>
      rcases p.publish_outcomes m with ⟨-, heq⟩ | ⟨-, -, heq⟩ | ⟨left, -, -, heq⟩
      · refine ⟨inbox, ?_, ?_⟩
        · simp only [apply, heq, h]
        · simp [apply, heq, Occurrence.takenBy, Occurrence.accepted?]
      · refine ⟨inbox ++ [m], ?_, ?_⟩
        · simp only [apply, heq, listeners_accept, h, List.map_cons, List.map_nil]
        · simp [apply, heq, Occurrence.takenBy, Occurrence.accepted?]
      · refine ⟨inbox, ?_, ?_⟩
        · simp only [apply, heq]
          exact h
        · simp [apply, heq, Occurrence.takenBy, Occurrence.accepted?]

end Apply

namespace Session

/-- What a publisher is after all that has happened to it. -/
structure Sound (s : Session) : Prop where
  online : s.publisher.online = switched true s.history
  published : s.publisher.published = accepted s.history
  /-- The failures asked for last are used up by the messages refused online since then. -/
  failures : ∀ before count after, s.history = before ++ .failNext count :: after →
    (∀ n, .failNext n ∉ after) →
      s.publisher.failures + injected (switched true before) after = count
  unasked : (∀ n, .failNext n ∉ s.history) → s.publisher.failures + injected true s.history = 0
  listening : ∀ name before after, s.history = before ++ .subscribe name :: after →
    (∀ o ∈ after, ¬o.Ends name) →
      ∃ inbox, s.publisher.listeners name = [⟨name, inbox, true⟩] ∧
        taken name after ++ inbox = accepted after
  silent : ∀ name,
    (∀ before after, s.history = before ++ .subscribe name :: after →
      .unsubscribe name ∈ after) → s.publisher.listeners name = []

variable {s : Session}

theorem sound_new : ({} : Session).Sound where
  online := rfl
  published := rfl
  failures := by simp
  unasked := fun _ => rfl
  listening := by simp
  silent := fun _ _ => rfl

namespace Sound

theorem failures_call (hs : s.Sound) (c : Call) {before after : List Occurrence} {count : Nat}
    (hhistory : (s.call c).history = before ++ .failNext count :: after)
    (hlast : ∀ n, .failNext n ∉ after) :
    (s.call c).publisher.failures + injected (switched true before) after = count := by
  rcases append_cons_of_concat hhistory with ⟨rfl, -, hnow⟩ | ⟨earlier, rfl, hbefore⟩
  · cases c <;> cases hnow
    rfl
  · have honline : s.publisher.online = switched (switched true before) earlier := by
      rw [hs.online, hbefore, switched_append]
      rfl
    have hkept : ∀ n, (s.publisher.apply c).2 ≠ .failNext n := fun n heq => hlast n (by simp [heq])
    rw [call, failures_add_injected honline hkept]
    exact hs.failures before count earlier hbefore fun n hn =>
      hlast n (List.mem_append_left _ hn)

theorem listening_call (hs : s.Sound) (c : Call) {name : String} {before after : List Occurrence}
    (hhistory : (s.call c).history = before ++ .subscribe name :: after)
    (hstays : ∀ o ∈ after, ¬o.Ends name) :
    ∃ inbox, (s.call c).publisher.listeners name = [⟨name, inbox, true⟩] ∧
      taken name after ++ inbox = accepted after := by
  rcases append_cons_of_concat hhistory with ⟨rfl, -, hnow⟩ | ⟨earlier, rfl, hbefore⟩
  · exact ⟨[], listeners_apply_of_subscribe hnow, rfl⟩
  · obtain ⟨inbox, hlisteners, hsent⟩ := hs.listening name before earlier hbefore fun o ho =>
      hstays o (List.mem_append_left _ ho)
    have hstays' := hstays _ (List.mem_append_right _ List.mem_cons_self)
    obtain ⟨inbox', hlisteners', hsent'⟩ := listeners_apply_of_singleton hlisteners hstays'
    refine ⟨inbox', hlisteners', ?_⟩
    rw [taken_concat, accepted_concat, List.append_assoc, hsent', ← hsent, List.append_assoc]

theorem silent_call (hs : s.Sound) (c : Call) {name : String}
    (hleft : ∀ before after, (s.call c).history = before ++ .subscribe name :: after →
      .unsubscribe name ∈ after) :
    (s.call c).publisher.listeners name = [] := by
  have hnew : (s.publisher.apply c).2 ≠ .subscribe name := by
    intro hnow
    have hafter := hleft s.history [] (by rw [call, hnow])
    cases hafter
  by_cases hnow : (s.publisher.apply c).2 = .unsubscribe name
  · exact listeners_apply_of_unsubscribe hnow
  · refine listeners_apply_of_nil (hs.silent name ?_) hnew
    intro before after hbefore
    have hafter := hleft before (after ++ [(s.publisher.apply c).2]) (by
      rw [call, hbefore, List.append_assoc, List.cons_append])
    rcases List.mem_append.mp hafter with hearlier | hlast
    · exact hearlier
    · exact absurd (List.mem_singleton.mp hlast).symm hnow

theorem call (hs : s.Sound) (c : Call) : (s.call c).Sound where
  online := by
    rw [Session.call, switched_concat, ← hs.online]
    exact s.publisher.online_apply c
  published := by
    rw [Session.call, accepted_concat, ← hs.published]
    exact s.publisher.published_apply c
  failures _ _ _ := hs.failures_call c
  unasked := by
    intro hnone
    have hkept : ∀ n, (s.publisher.apply c).2 ≠ .failNext n := fun n heq =>
      hnone n (by simp [Session.call, heq])
    rw [Session.call, failures_add_injected hs.online hkept]
    exact hs.unasked fun n hn => hnone n (List.mem_append_left _ hn)
  listening _ _ _ := hs.listening_call c
  silent _ := hs.silent_call c

theorem run (hs : s.Sound) (calls : List Call) : (s.run calls).Sound := by
  induction calls generalizing s with
  | nil => exact hs
  | cons c rest ih => exact ih (hs.call c)

end Sound

/-- What a publisher owes to those who use it. -/
structure Delivers (s : Session) : Prop where
  /-- A message is accepted exactly if the publisher is online and no failure is to come. -/
  accepts : ∀ m, (s.publisher.publish m).2 = .ok () ↔
    switched true s.history = true ∧ s.publisher.failures = 0
  /-- A message that is refused offline uses up no failure, and changes nothing else. -/
  offline : switched true s.history = false →
    ∀ m, s.publisher.publish m = (s.publisher, .error (rejection m))
  /-- One that is refused online uses up exactly one, and changes nothing else. -/
  online : switched true s.history = true → ∀ left, s.publisher.failures = left + 1 →
    ∀ m, s.publisher.publish m = ({ s.publisher with failures := left }, .error (rejection m))
  /-- The failures to come are those asked for last, less the messages refused online since. -/
  pending : ∀ before count after, s.history = before ++ .failNext count :: after →
    (∀ n, .failNext n ∉ after) →
      s.publisher.failures + injected (switched true before) after = count
  unasked : (∀ n, .failNext n ∉ s.history) → s.publisher.failures = 0
  /-- The messages that were accepted are kept, in order. -/
  published : s.publisher.published = accepted s.history
  /-- A subscriber has been sent those accepted since it came, each once and in order, whoever else
  has left meanwhile; what it has not taken is in its inbox. -/
  sent : ∀ name before after, s.history = before ++ .subscribe name :: after →
    (∀ o ∈ after, ¬o.Ends name) →
      ∃ inbox, s.publisher.inbox? name = some inbox ∧ taken name after ++ inbox = accepted after
  /-- One that has left has no inbox any more, and is forgotten with the next message. -/
  left : ∀ name,
    (∀ before after, s.history = before ++ .subscribe name :: after →
      .unsubscribe name ∈ after) → s.publisher.inbox? name = none
  pruned : ∀ m, (s.publisher.publish m).2 = .ok () →
    ∀ listener ∈ (s.publisher.publish m).1.subscribers, listener.listening = true

/-- Whatever calls are made of a publisher, it accepts what it should, keeps what it accepts, and
sends it to those who listen. -/
theorem delivers (calls : List Call) : (({} : Session).run calls).Delivers := by
  have hs := sound_new.run calls
  generalize ({} : Session).run calls = s at hs
  have honline := hs.online
  refine
    { accepts := fun m => honline ▸ s.publisher.publish_ok_iff m
      offline := fun hoff => publish_of_offline (honline.trans hoff)
      online := fun hon left => publish_of_failures (honline.trans hon)
      pending := hs.failures
      unasked := fun hnone => Nat.eq_zero_of_add_eq_zero_right (hs.unasked hnone)
      published := hs.published
      sent := ?_, left := ?_, pruned := ?_ }
  · intro name before after hhistory hstays
    obtain ⟨inbox, hlisteners, hsent⟩ := hs.listening name before after hhistory hstays
    refine ⟨inbox, ?_, hsent⟩
    rw [inbox?_eq, hlisteners]
    rfl
  · intro name hleft
    rw [inbox?_eq, hs.silent name hleft]
    rfl
  · intro m hok listener hlistener
    rcases s.publisher.publish_outcomes m with ⟨-, heq⟩ | ⟨-, -, heq⟩ | ⟨_, -, -, heq⟩
    · rw [heq] at hok
      cases hok
    · rw [heq] at hlistener
      exact listening_of_mem_accept _ m listener hlistener
    · rw [heq] at hok
      cases hok

/-- One subscriber leaves, and one message is refused offline and one online. -/
example :
    let m (key : String) : Message := ⟨"account.created", key, "{}"⟩
    let s := ({} : Session).run
      [.subscribe "audit", .subscribe "mail", .failNext 1, .setOnline false, .publish (m "1"),
        .setOnline true, .publish (m "2"), .publish (m "3"), .unsubscribe "audit",
        .publish (m "4")]
    s.publisher.published = [m "3", m "4"] ∧ s.publisher.inbox? "mail" = some [m "3", m "4"] ∧
      s.publisher.inbox? "audit" = none := by
  decide

end Session

end Ledger.Publisher
