import CommuteSim.Proofs.World.Aside

/-!
# Rounds

Whatever registrations were made, in a round those of core listeners come before those of users, and
within a tier the order is that of registration; one that does not want the event is passed over,
and a listener that was registered twice is told twice. The round goes on as long as the listeners
end well. The first one that fails or panics is the last that is told, and its failure names it, the
tier of its registration, the event and the cause.

Main statements: `order_registered` for the order, `served_tellAll` for the way of a round,
`calls_tellAll` for who is told, and `fan_out` for rounds on a bus with any registrations.
-/

namespace CommuteSim

variable {σ : Type}

/-- Who is told of what by a moment: the list and the place in it. -/
def Moment.call? : Moment σ → Option (Tier × Nat × Event)
  | .told t n e _ _ => some (t, n, e)
  | _ => none

theorem Moment.call?_of_aside {m : Moment σ} (h : m.aside = true) : m.call? = none := by
  cases m with
  | told t n e x g => cases h
  | _ => rfl

/-- What the history gains when a registration is told of an event. -/
def Registration.call (e : Event) (r : Registration σ) : Tier × Nat × Event :=
  (r.tier, r.place, e)

namespace ListenerBus

/-! ## Registrations -/

/-- A bus on which registrations were made one after the other. -/
def registered (rs : List (Listener σ × Tier)) : ListenerBus σ :=
  rs.foldl (fun b (l, t) => b.register l t) {}

/-- The registrations in a tier of listeners that want a kind of event. -/
def due (rs : List (Listener σ × Tier)) (k : EventKind) (t : Tier) : List (Listener σ × Tier) :=
  rs.filter fun (l, u) => u = t ∧ l.wants k

section Registrations

variable {b : ListenerBus σ} {rs : List (Listener σ × Tier)} {k : EventKind} {t : Tier}

theorem tier_registered (rs : List (Listener σ × Tier)) (t : Tier) :
    (registered rs).tier t = (rs.filter fun (_, u) => u = t).map Prod.fst := by
  have hfold : ∀ b : ListenerBus σ, (rs.foldl (fun b (l, t) => b.register l t) b).tier t =
      b.tier t ++ (rs.filter fun (_, u) => u = t).map Prod.fst := by
    induction rs with
    | nil => exact fun b => (List.append_nil _).symm
    | cons r rest ih =>
        obtain ⟨l, u⟩ := r
        intro b
        rw [List.foldl_cons, ih, tier_register]
        by_cases h : t = u
        · subst h
          simp
        · simp [h, Ne.symm h]
  have hnone : ({} : ListenerBus σ).tier t = [] := by cases t <;> rfl
  rw [registered, hfold, hnone, List.nil_append]

/-- In what order the two tiers are registered among each other makes no difference. -/
theorem registered_congr {rs' : List (Listener σ × Tier)}
    (h : ∀ t : Tier, (rs'.filter fun (_, u) => u = t) = rs.filter fun (_, u) => u = t) :
    registered rs' = registered rs := by
  have htier : ∀ t, (registered rs').tier t = (registered rs).tier t := by
    intro t
    rw [tier_registered, tier_registered, h]
  have hbus : ∀ b : ListenerBus σ, b = ⟨b.tier .core, b.tier .user⟩ := fun _ => rfl
  rw [hbus (registered rs'), hbus (registered rs), htier, htier]

/-- A registration stands at its place in the list of its tier. -/
theorem place_of_mem {r : Registration σ} (h : r ∈ b.registrations t) :
    r.tier = t ∧ (b.tier t)[r.place]? = some r.listener := by
  obtain ⟨⟨l, n⟩, hmem, rfl⟩ := List.mem_map.mp h
  exact ⟨rfl, List.mk_mem_zipIdx_iff_getElem?.mp hmem⟩

theorem place_of_mem_order {r : Registration σ} (h : r ∈ b.order k) :
    (b.tier r.tier)[r.place]? = some r.listener := by
  rcases List.mem_append.mp (List.mem_filter.mp h |>.1) with h | h
  all_goals
    obtain ⟨htier, hplace⟩ := place_of_mem h
    rw [htier]
    exact hplace

/-- Of each tier those are told that want the event. -/
theorem map_registrations (rs : List (Listener σ × Tier)) (k : EventKind) (t : Tier) :
    (((registered rs).registrations t).filter (·.listener.wants k)).map
      (fun r => (r.listener, r.tier)) = due rs k t := by
  have hback : ∀ xs : List (Listener σ × Tier), (∀ x ∈ xs, x.2 = t) →
      (xs.map Prod.fst).map (fun l => (l, t)) = xs := by
    intro xs hxs
    have hpair : ∀ x ∈ xs, ((fun l => (l, t)) ∘ Prod.fst) x = id x := by
      rintro ⟨l, u⟩ hx
      rw [← hxs _ hx]
      rfl
    rw [List.map_map, List.map_congr_left hpair, List.map_id]
  have hpairs : ((registered rs).registrations t).map (fun r => (r.listener, r.tier)) =
      rs.filter fun (_, u) => u = t := by
    rw [registrations, List.map_map]
    change ((registered rs).tier t).zipIdx.map ((fun l => (l, t)) ∘ Prod.fst) = _
    rw [← List.map_map, List.zipIdx_map_fst, tier_registered, hback _ fun x hx => ?_]
    simpa using (List.mem_filter.mp hx).2
  have hfilter := List.filter_map (f := fun r : Registration σ => (r.listener, r.tier))
    (p := fun x => x.1.wants k) (l := (registered rs).registrations t)
  rw [hpairs] at hfilter
  rw [due]
  refine hfilter.symm.trans ?_
  rw [List.filter_filter]
  refine List.filter_congr fun x _ => ?_
  simp [Bool.and_comm]

/-- Core listeners are told before those of users, each tier in the order of registration. -/
theorem order_registered (rs : List (Listener σ × Tier)) (k : EventKind) :
    ((registered rs).order k).map (fun r => (r.listener, r.tier)) =
      due rs k .core ++ due rs k .user := by
  rw [order, List.filter_append, List.map_append, map_registrations, map_registrations]

end Registrations

/-! ## The way of a round -/

/-- What a listener comes to when it is told of an event. -/
def handled (e : Event) (r : Registration σ) (w : World σ) : Outcome Cause Unit × World σ :=
  (r.listener.notify e).run (w.noted (toldMoment e r w))

/-- Listeners that are told of an event one after the other, each in the world that the one before
it leaves, and all end well. -/
inductive Served (e : Event) : List (Registration σ) → World σ → World σ → Prop where
  | nil (w : World σ) : Served e [] w w
  | cons {r : Registration σ} {rest : List (Registration σ)} {w v u : World σ}
      (h : handled e r w = (.ok (), v)) (h' : Served e rest v u) : Served e (r :: rest) w u

/-- How a round ends: all listeners end well, or those before one that does not. -/
inductive Ends (e : Event) (rs : List (Registration σ)) (w : World σ) :
    List (Registration σ) → Outcome ListenerFailure Unit → World σ → Prop where
  | served {u : World σ} (h : Served e rs w u) : Ends e rs w rs (.ok ()) u
  | broken {done rest : List (Registration σ)} {r : Registration σ} {v u : World σ}
      {a : Abort Cause} (hrs : rs = done ++ r :: rest) (h : Served e done w v)
      (h' : handled e r v = (.error a, u)) :
      Ends e rs w (done ++ [r])
        (.error (a.map fun c => ⟨r.listener.name, r.tier, e, c⟩)) u

section Way

variable {e : Event} {r : Registration σ} {rs rest : List (Registration σ)} {w v : World σ}

theorem tell_of_ok (h : handled e r w = (.ok (), v)) : tell e r w = (.ok (), v) := by
  have htell : tell e r w = ((handled e r w).1.mapError
      (Abort.map fun c => ⟨r.listener.name, r.tier, e, c⟩), (handled e r w).2) := (tell_run e r w).1
  rw [htell, h]
  rfl

theorem tell_of_error {a : Abort Cause} (h : handled e r w = (.error a, v)) :
    tell e r w = (.error (a.map fun c => ⟨r.listener.name, r.tier, e, c⟩), v) := by
  have htell : tell e r w = ((handled e r w).1.mapError
      (Abort.map fun c => ⟨r.listener.name, r.tier, e, c⟩), (handled e r w).2) := (tell_run e r w).1
  rw [htell, h]
  rfl

/-- A round ends with the first listener that does not end well. By induction on the listeners that
are to be told. -/
theorem ends_tellAll (e : Event) (rs : List (Registration σ)) (w : World σ) :
    ∃ told, Ends e rs w told (tellAll e rs w).1 (tellAll e rs w).2 := by
  induction rs generalizing w with
  | nil => exact ⟨[], .served (.nil w)⟩
  | cons r rest ih =>
      cases hr : handled e r w with
      | mk result v =>
          cases result with
          | ok _ =>
              have htell := tell_of_ok hr
              rw [tellAll_of_ok (congrArg Prod.fst htell), htell]
              obtain ⟨told, hends⟩ := ih v
              generalize tellAll e rest v = x at hends
              obtain ⟨result, u⟩ := x
              cases hends with
              | served h => exact ⟨r :: rest, .served (.cons hr h)⟩
              | broken hrs h h' => exact ⟨_, .broken (by rw [hrs]; rfl) (.cons hr h) h'⟩
          | error a =>
              have htell := tell_of_error hr
              rw [tellAll_of_error (congrArg Prod.fst htell), htell]
              have hfirst : r :: rest = [] ++ r :: rest := rfl
              exact ⟨[r], .broken hfirst (.nil w) hr⟩

/-! ## Who is told -/

/-- A listener that is told leaves one call, whatever it does then. -/
theorem calls_handled (e : Event) (r : Registration σ) (w : World σ) :
    ∃ l, (handled e r w).2.past = w.past ++ l ∧ l.filterMap Moment.call? = [r.call e] := by
  obtain ⟨l, hl, haside⟩ := (World.onward_run (r.listener.notify e)
    (w.noted (toldMoment e r w))).past
  refine ⟨toldMoment e r w :: l, ?_, ?_⟩
  · rw [handled, hl, World.past_noted, List.append_assoc]
    rfl
  · have hnone : l.filterMap Moment.call? = [] :=
      List.filterMap_eq_nil_iff.mpr fun m hm => Moment.call?_of_aside (haside m hm)
    have hfirst : (toldMoment e r w).call? = some (r.call e) := rfl
    rw [List.filterMap_cons, hfirst, hnone]

theorem calls_served (h : Served e rs w v) :
    ∃ l, v.past = w.past ++ l ∧ l.filterMap Moment.call? = rs.map (Registration.call e) := by
  induction h with
  | nil w => exact ⟨[], (List.append_nil _).symm, rfl⟩
  | @cons r rest w v u h _ ih =>
      obtain ⟨l, hl, hcall⟩ := calls_handled e r w
      obtain ⟨m, hm, hcalls⟩ := ih
      rw [h] at hl
      refine ⟨l ++ m, by rw [hm, hl, List.append_assoc], ?_⟩
      rw [List.filterMap_append, hcall, hcalls]
      rfl

/-- The calls of a round are those of the listeners up to its end. -/
theorem calls_ends {told : List (Registration σ)} {result : Outcome ListenerFailure Unit}
    (h : Ends e rs w told result v) :
    ∃ l, v.past = w.past ++ l ∧ l.filterMap Moment.call? = told.map (Registration.call e) := by
  cases h with
  | served h => exact calls_served h
  | @broken done rest r u _ a hrs h h' =>
      obtain ⟨l, hl, hcalls⟩ := calls_served h
      obtain ⟨m, hm, hcall⟩ := calls_handled e r u
      rw [h'] at hm
      refine ⟨l ++ m, by rw [hm, hl, List.append_assoc], ?_⟩
      rw [List.filterMap_append, hcalls, hcall, List.map_append]
      rfl

end Way

/-! ## Rounds on any bus -/

/-- Whatever registrations were made before, a round tells those of core listeners and then those of
users that want the event, each tier in the order of registration and each registration once, in the
world that the one before leaves. If all end well their number is given. Otherwise nobody is told
behind the first one that does not, and that one is named in the failure, with the tier of its
registration, the event and the cause; a panic goes on as it is. How the registrations of the two
tiers came in between each other makes no difference. -/
theorem fan_out (rs : List (Listener σ × Tier)) (e : Event) (w : World σ) :
    let bus := registered rs
    let order := bus.order e.kind
    order.map (fun r => (r.listener, r.tier)) = due rs e.kind .core ++ due rs e.kind .user ∧
    (∀ r ∈ order, (bus.tier r.tier)[r.place]? = some r.listener) ∧
    (∃ told l u, (bus.notify e w).2 = u ∧ u.past = w.past ++ l ∧
      l.filterMap Moment.call? = told.map (Registration.call e) ∧
      (told = order ∧ Served e order w u ∧ (bus.notify e w).1 = .ok order.length ∨
        ∃ done r rest v a, order = done ++ r :: rest ∧ told = done ++ [r] ∧
          Served e done w v ∧ handled e r v = (.error a, u) ∧
          (bus.notify e w).1 = .error (a.map fun c => ⟨r.listener.name, r.tier, e, c⟩))) ∧
    ∀ rs' : List (Listener σ × Tier),
      (∀ t : Tier, (rs'.filter fun (_, u) => u = t) = rs.filter fun (_, u) => u = t) →
      (registered rs').notify e w = bus.notify e w := by
  intro bus order
  refine ⟨order_registered rs e.kind, fun r hr => place_of_mem_order hr, ?_, fun rs' h => ?_⟩
  · have hnotify : bus.notify e w =
        ((tellAll e order w).1.map fun () => order.length, (tellAll e order w).2) := rfl
    obtain ⟨told, hends⟩ := ends_tellAll e order w
    obtain ⟨l, hl, hcalls⟩ := calls_ends hends
    rw [hnotify]
    refine ⟨told, l, _, rfl, hl, hcalls, ?_⟩
    dsimp only
    generalize tellAll e order w = x at hends
    obtain ⟨result, u⟩ := x
    cases hends with
    | served h => exact .inl ⟨rfl, h, rfl⟩
    | broken hrs h h' => exact .inr ⟨_, _, _, _, _, hrs, rfl, h, h', rfl⟩
  · rw [registered_congr h]

/-- A listener that ends well when it is told for the first time only. -/
def weary : Listener Nat where
  name := "weary"
  notify _ := do
    let n ← Program.memory
    Program.remember (n + 1)
    if n = 0 then return else Program.fail ⟨"not again", []⟩

/-- Registered in both tiers, it ends well where it is told as a core listener, and fails where it
is told as one of users, though that registration was made first. -/
theorem fan_out_weary :
    let rs : List (Listener Nat × Tier) := [(weary, .user), (weary, .core)]
    let w : World Nat := { memory := 0 }
    (∀ t : Tier, (rs.reverse.filter fun (_, u) => u = t) = rs.filter fun (_, u) => u = t) ∧
      (registered rs.reverse).notify .startup w = (registered rs).notify .startup w ∧
      ((registered rs).notify .startup w).1 =
        .error (.failure ⟨"weary", .user, .startup, ⟨"not again", []⟩⟩) := by
  intro rs w
  have hsame : ∀ t : Tier,
      (rs.reverse.filter fun (_, u) => u = t) = rs.filter fun (_, u) => u = t := by
    intro t
    cases t <;> rfl
  obtain ⟨-, -, -, hcongr⟩ := fan_out rs .startup w
  exact ⟨hsame, hcongr rs.reverse hsame, rfl⟩

end ListenerBus

end CommuteSim
