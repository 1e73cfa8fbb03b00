import A3Net.Machine.Run

namespace A3Net.Machine

open List

variable {State Event : Type*}

/-- Each event of the list meets the condition after the events before it. -/
def Stepwise (condition : List Event → Event → Prop) (events : List Event) : Prop :=
  ∀ past event, past ++ [event] <+: events → condition past event

variable {condition : List Event → Event → Prop}

theorem stepwise_nil : Stepwise condition [] := by
  intro past event short
  simp at short

variable {events : List Event} {last : Event}

theorem stepwise_concat :
    Stepwise condition (events ++ [last]) ↔ Stepwise condition events ∧ condition events last := by
  constructor
  · intro all
    exact ⟨fun past event short => all past event (short.trans (prefix_append _ _)),
      all events last (prefix_refl _)⟩
  · rintro ⟨all, final⟩ past event short
    rcases prefix_concat_iff.mp short with whole | shorter
    · obtain ⟨rfl, same⟩ := append_inj' whole rfl
      obtain rfl := singleton_inj.mp same
      exact final
    · exact all past event shorter

/-- Each event of a guarded run meets the condition in the state that it finds. -/
theorem Guarded.stepwise {step : State → Event → State} {condition : State → Event → Prop}
    {start : State} (guarded : Guarded step condition start events) :
    Stepwise (fun past event => condition (run step start past) event) events := by
  induction events generalizing start with
  | nil => exact stepwise_nil
  | cons head rest ih =>
    intro past event short
    cases past with
    | nil =>
      obtain ⟨rfl, -⟩ := cons_prefix_cons.mp short
      exact guarded.1
    | cons first past =>
      obtain ⟨rfl, shorter⟩ := cons_prefix_cons.mp short
      exact ih guarded.2 past event shorter

variable (step : State → Event → State) (start : State) (related : State → State → Prop)

/-- The state after these events is related to every earlier one. -/
def RelatedToPast (events : List Event) : Prop :=
  ∀ past, past <+: events → related (run step start past) (run step start events)

/-- Every two states of the run are related in the order in which the run reaches them. -/
def Ordered (events : List Event) : Prop :=
  ∀ later, later <+: events → RelatedToPast step start related later

theorem ordered_concat :
    Ordered step start related (events ++ [last]) ↔
      Ordered step start related events ∧ RelatedToPast step start related (events ++ [last]) := by
  constructor
  · intro ordered
    exact ⟨fun later short => ordered later (short.trans (prefix_append _ _)),
      ordered _ (prefix_refl _)⟩
  · rintro ⟨before, final⟩ later short
    rcases prefix_concat_iff.mp short with rfl | shorter
    · exact final
    · exact before later shorter

/-- When a step keeps the relation to the past exactly under the condition, a run is ordered exactly
when each of its events meets the condition. -/
theorem ordered_iff_stepwise (reflexive : ∀ state, related state state)
    (stepExact : ∀ past event, RelatedToPast step start related past →
      (RelatedToPast step start related (past ++ [event]) ↔ condition past event)) :
    Ordered step start related events ↔ Stepwise condition events := by
  induction events using List.reverseRecOn with
  | nil =>
    refine ⟨fun _ => stepwise_nil, fun _ later short past shorter => ?_⟩
    rw [prefix_nil.mp short] at shorter ⊢
    rw [prefix_nil.mp shorter]
    exact reflexive _
  | append_singleton events last ih =>
    rw [ordered_concat, stepwise_concat, ih]
    refine and_congr_right fun all => ?_
    exact stepExact events last (ih.mpr all events (prefix_refl _))

/-- A run is ordered when each of its steps keeps an order. -/
theorem ordered_of_steps (reflexive : ∀ state, related state state)
    (transitive : ∀ {first second third}, related first second → related second third →
      related first third) (steps : Stepwise (fun past event =>
      related (run step start past) (run step start (past ++ [event]))) events) :
    Ordered step start related events := by
  induction events using List.reverseRecOn with
  | nil =>
    intro later short past shorter
    rw [prefix_nil.mp short] at shorter ⊢
    rw [prefix_nil.mp shorter]
    exact reflexive _
  | append_singleton events last ih =>
    obtain ⟨before, final⟩ := stepwise_concat.mp steps
    refine (ordered_concat step start related).mpr ⟨ih before, fun past short => ?_⟩
    rcases prefix_concat_iff.mp short with rfl | shorter
    · exact reflexive _
    · exact transitive (ih before events (prefix_refl _) past shorter) final

end A3Net.Machine
