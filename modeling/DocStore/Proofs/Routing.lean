import DocStore.Datasource
import DocStore.Proofs.Entries
import Mathlib.Data.Finset.Card
import Mathlib.Data.List.Induction

/-! # Routing models to connectors

Connectors are added and replaced, and models are registered one by one or all at once, in any
order. Two facts about a datasource are kept by every step (`Datasource.isRouted_step`): under each
name it has the connector of that name that was added last, and a model is routed just if it was
registered when a connector of its name was there, to that name. So a route never leads to a
connector that is missing, and replacing a connector moves all models that are routed to it
(`Datasource.connectorOf_of_isRouted`). -/

namespace DocStore

namespace Datasource

/-! ## Histories -/

/-- **An enumeration** of a finite set of models, in any order. -/
structure Listing {ι : Type} (derived : Finset ι) where
  /-- The models, one after the other. -/
  order : List ι
  /-- They are those of the set, each once. -/
  lists : (order : Multiset ι) = derived.val

/-- **A step** in the life of a datasource. -/
inductive Step (δ : Type) {ι : Type} (derived : Finset ι) where
  /-- A connector is added. -/
  | add (connector : Connector δ)
  /-- A model is registered. -/
  | register (i : ι)
  /-- All derived models are registered. -/
  | registerAll (listing : Listing derived)

variable {δ ι : Type} {derived : Finset ι} {α : ι → Type}

/-- The connector that a step adds. -/
def Step.added? : Step δ derived → Option (Connector δ)
  | .add connector => some connector
  | .register _ | .registerAll _ => none

/-- Whether a step asks for a model to be registered. -/
def Step.Registers (i : ι) : Step δ derived → Prop
  | .add _ => False
  | .register j => j = i
  | .registerAll _ => i ∈ derived

/-- The connector of a name that was **added last**. -/
def latest? (steps : List (Step δ derived)) (name : String) : Option (Connector δ) :=
  (steps.filterMap Step.added?).reverse.find? fun connector => connector.name = name

variable (models : ∀ i, Model (α i))

/-- Whether a model was **registered in time**: at some step, when a connector of the name that it
asks for was there. -/
def Registered (steps : List (Step δ derived)) (i : ι) : Prop :=
  ∃ before step later, steps = before ++ step :: later ∧ step.Registers i ∧
    (latest? before (models i).connector).isSome = true

/-- The registrations of the models of a listing. -/
def Listing.registrations (listing : Listing derived) : List Registration :=
  listing.order.map fun i => (models i).registration

/-- The datasource after a step; one that fails changes nothing. -/
def step (source : Datasource δ) : Step δ derived → Datasource δ
  | .add connector => source.addConnector connector
  | .register i =>
    match source.register (models i) with
    | .ok (_, routed) => routed
    | .error _ => source
  | .registerAll listing => (source.registerAll (listing.registrations models)).2

/-- The datasource after steps, from an empty one. -/
def after (steps : List (Step δ derived)) : Datasource δ := steps.foldl (step models) {}

theorem after_concat (before : List (Step δ derived)) (last : Step δ derived) :
    after models (before ++ [last]) = (after models before).step models last := by
  rw [after, List.foldl_append]
  rfl

variable {before steps : List (Step δ derived)} {last : Step δ derived} {i j : ι} {name : String}

theorem latest?_concat_add (before : List (Step δ derived)) (connector : Connector δ)
    (name : String) :
    latest? (before ++ [.add connector]) name
      = if connector.name = name then some connector else latest? before name := by
  rw [latest?, List.filterMap_append, List.reverse_append, List.find?_append]
  change ([connector].find? fun connector => connector.name = name).or (latest? before name) = _
  by_cases h : connector.name = name <;> simp [h]

/-- A step that adds no connector leaves every name with the connector that it has. -/
theorem latest?_concat_of_added? (h : last.added? = none) (name : String) :
    latest? (before ++ [last]) name = latest? before name := by
  rw [latest?, List.filterMap_append, List.filterMap_cons_none h, List.filterMap_nil,
    List.append_nil, ← latest?]

/-- What is there stays there. -/
theorem isSome_latest?_append (later : List (Step δ derived))
    (h : (latest? before name).isSome = true) :
    (latest? (before ++ later) name).isSome = true := by
  rw [latest?, List.filterMap_append, List.reverse_append, List.find?_append, Option.isSome_or]
  rw [latest?] at h
  rw [h, Bool.or_true]

/-- A model that was registered in time has its connector. -/
theorem isSome_latest?_of_registered (h : Registered models steps i) :
    (latest? steps (models i).connector).isSome = true := by
  obtain ⟨before, step, later, rfl, -, hpresent⟩ := h
  exact isSome_latest?_append _ hpresent

/-- One more step registers the models that it asks for and whose connectors are there. -/
theorem registered_concat :
    Registered models (before ++ [last]) i
      ↔ Registered models before i ∨
        (last.Registers i ∧ (latest? before (models i).connector).isSome = true) := by
  constructor
  · rintro ⟨first, step, later, hsplit, hstep, hpresent⟩
    rcases later.eq_nil_or_concat with rfl | ⟨later, final, rfl⟩
    · obtain ⟨rfl, hlast⟩ := List.append_inj' hsplit rfl
      cases hlast
      exact Or.inr ⟨hstep, hpresent⟩
    · rw [List.concat_eq_append, ← List.cons_append, ← List.append_assoc] at hsplit
      obtain ⟨rfl, -⟩ := List.append_inj' hsplit rfl
      exact Or.inl ⟨first, step, later, rfl, hstep, hpresent⟩
  · rintro (⟨first, step, later, rfl, hstep, hpresent⟩ | ⟨hlast, hpresent⟩)
    · exact ⟨first, step, later ++ [last], by rw [List.append_assoc, List.cons_append], hstep,
        hpresent⟩
    · exact ⟨before, last, [], rfl, hlast, hpresent⟩

/-! ## Registering -/

/-- A model is registered if its connector is there, and that is the only reason to refuse it. -/
theorem register_eq {β : Type} (source : Datasource δ) (model : Model β) :
    source.register model
      = match Entries.get? source.connectors model.connector with
        | some connector =>
          .ok (connector,
            { source with routes := Entries.insert source.routes model.name model.connector })
        | none => .error (.connectorNotFound model.connector) := by
  rw [register, route, connector]
  cases Entries.get? source.connectors model.connector <;> rfl

/-- Register a model **in place**: the connector is looked up, the route is written, and the
connector is looked up once more. -/
def registerInPlace {β : Type} (model : Model β) :
    StateM (Datasource δ) (Except Error (Connector δ)) := do
  if !Entries.contains (← get).connectors model.connector then
    return .error (.connectorNotFound model.connector)
  modify fun source =>
    { source with routes := Entries.insert source.routes model.name model.connector }
  return (← get).connector model.connector

/-- Registering in place answers as `register` does, and leaves what that gives or the datasource as
it was. -/
theorem run_registerInPlace {β : Type} (source : Datasource δ) (model : Model β) :
    (registerInPlace model).run source
      = match source.register model with
        | .ok (connector, routed) => (.ok connector, routed)
        | .error error => (.error error, source) := by
  rw [register_eq, registerInPlace, StateT.run_bind, StateT.run_get, pure_bind]
  cases h : Entries.get? source.connectors model.connector with
  | none =>
    rw [Entries.contains, h]
    rfl
  | some connector =>
    rw [Entries.contains, h]
    exact congrArg (fun found => (found, _)) (by rw [Datasource.connector, h])

/-- Registering one model does to the datasource what registering a list of it alone does. -/
theorem step_register (source : Datasource δ) (i : ι) :
    source.step models (.register i : Step δ derived)
      = (source.registerAll [(models i).registration]).2 := by
  rw [step, registerAll, register, Model.registration]
  cases source.route (models i).name (models i).connector <;> rfl

/-! ## Registering many models -/

/-- One more model at the front. -/
theorem registerAll_cons (source : Datasource δ) (i : ι) (order : List ι) :
    source.registerAll ((i :: order).map fun i => (models i).registration)
      = match Entries.get? source.connectors (models i).connector with
        | some _ =>
          let routed : Datasource δ := { source with
            routes := Entries.insert source.routes (models i).name (models i).connector }
          let (count, routed) := routed.registerAll (order.map fun i => (models i).registration)
          (count + 1, routed)
        | none => source.registerAll (order.map fun i => (models i).registration) := by
  have hroute : source.route (models i).registration.model (models i).registration.connector
      = source.register (models i) := rfl
  rw [List.map_cons, registerAll, hroute, register_eq]
  cases Entries.get? source.connectors (models i).connector <;> rfl

/-- Registering models leaves the connectors as they are. -/
theorem connectors_registerAll (source : Datasource δ) (order : List ι) :
    (source.registerAll (order.map fun i => (models i).registration)).2.connectors
      = source.connectors := by
  induction order generalizing source with
  | nil => rfl
  | cons i order ih =>
    rw [registerAll_cons]
    cases Entries.get? source.connectors (models i).connector with
    | none => exact ih source
    | some connector => exact ih _

/-- **How many models are registered**: those whose connectors are there. -/
theorem count_registerAll (source : Datasource δ) (order : List ι) :
    (source.registerAll (order.map fun i => (models i).registration)).1
      = order.countP fun i => (Entries.get? source.connectors (models i).connector).isSome := by
  induction order generalizing source with
  | nil => rfl
  | cons i order ih =>
    rw [registerAll_cons, List.countP_cons]
    cases Entries.get? source.connectors (models i).connector with
    | none => exact ih source
    | some connector => exact congrArg (· + 1) (ih _)

/-- **What a name is routed to** after models are registered: to the connector of a model of that
name, if one has its connector there, and to what it was routed to before, if none has. -/
theorem routes_registerAll (source : Datasource δ) (order : List ι) (name : String) :
    (∃ i ∈ order, (Entries.get? source.connectors (models i).connector).isSome = true ∧
      (models i).name = name ∧
      Entries.get? (source.registerAll (order.map fun i => (models i).registration)).2.routes name
        = some (models i).connector) ∨
    ((∀ i ∈ order, (Entries.get? source.connectors (models i).connector).isSome = true →
      (models i).name ≠ name) ∧
      Entries.get? (source.registerAll (order.map fun i => (models i).registration)).2.routes name
        = Entries.get? source.routes name) := by
  induction order generalizing source with
  | nil => exact Or.inr ⟨fun i hmem => absurd hmem List.not_mem_nil, rfl⟩
  | cons i order ih =>
    rw [registerAll_cons]
    cases hpresent : Entries.get? source.connectors (models i).connector with
    | none =>
      rcases ih source with ⟨j, hj, hrouted⟩ | ⟨hothers, hkept⟩
      · exact Or.inl ⟨j, List.mem_cons_of_mem _ hj, hrouted⟩
      · refine Or.inr ⟨fun j hj hthere => ?_, hkept⟩
        rcases List.mem_cons.mp hj with rfl | hj
        · rw [hpresent] at hthere
          cases hthere
        · exact hothers j hj hthere
    | some connector =>
      rcases ih { source with
        routes := Entries.insert source.routes (models i).name (models i).connector } with
        ⟨j, hj, hrouted⟩ | ⟨hothers, hkept⟩
      · exact Or.inl ⟨j, List.mem_cons_of_mem _ hj, hrouted⟩
      · -- no later model has the name, so what the first one wrote stands
        rw [Entries.get?_insert] at hkept
        by_cases hname : (models i).name = name
        · refine Or.inl ⟨i, List.mem_cons_self, by rw [hpresent]; rfl, hname, ?_⟩
          rw [if_pos hname.symm] at hkept
          exact hkept
        · rw [if_neg (Ne.symm hname)] at hkept
          refine Or.inr ⟨fun j hj hthere => ?_, hkept⟩
          rcases List.mem_cons.mp hj with rfl | hj
          · exact hname
          · exact hothers j hj hthere

/-! ## What every step keeps -/

/-- **What a datasource knows** after steps: the connectors that were added last, and the routes of
the models that were registered in time. -/
structure IsRouted (steps : List (Step δ derived)) (source : Datasource δ) : Prop where
  /-- Under a name there is the connector that was added last. -/
  connectors : ∀ name, Entries.get? source.connectors name = latest? steps name
  /-- A model is routed to the connector that it asks for, if it was registered in time. -/
  routes : ∀ i name, Entries.get? source.routes (models i).name = some name
    ↔ Registered models steps i ∧ name = (models i).connector

variable {models} {source : Datasource δ}

/-- A new connector is the one of its name. -/
theorem isRouted_addConnector (h : IsRouted models before source) (connector : Connector δ) :
    IsRouted models (before ++ [.add connector]) (source.addConnector connector) := by
  constructor
  · intro name
    rw [addConnector, Entries.get?_insert, h.connectors, latest?_concat_add]
    simp only [eq_comm]
  · intro i name
    rw [registered_concat, Step.Registers, false_and, or_false]
    exact h.routes i name

/-- A step that registers models routes those whose connectors are there. -/
theorem isRouted_registerAll (hnames : Function.Injective fun i => (models i).name)
    (h : IsRouted models before source) (hadded : last.added? = none) (order : List ι)
    (hlast : ∀ i, last.Registers i ↔ i ∈ order) :
    IsRouted models (before ++ [last])
      (source.registerAll (order.map fun i => (models i).registration)).2 := by
  constructor
  · intro name
    rw [connectors_registerAll, h.connectors, latest?_concat_of_added? hadded]
  · intro i name
    rw [registered_concat, hlast]
    rcases routes_registerAll models source order (models i).name with
      ⟨j, hj, hthere, hname, hrouted⟩ | ⟨hothers, hkept⟩
    · -- the name is that of one model only
      obtain rfl : j = i := hnames hname
      rw [h.connectors] at hthere
      rw [hrouted, Option.some.injEq]
      exact ⟨fun heq => ⟨Or.inr ⟨hj, hthere⟩, heq.symm⟩, fun hboth => hboth.2.symm⟩
    · have hnone : ¬ (i ∈ order ∧ (latest? before (models i).connector).isSome = true) := by
        rintro ⟨hi, hthere⟩
        rw [← h.connectors] at hthere
        exact hothers i hi hthere rfl
      rw [hkept, h.routes, or_iff_left hnone]

theorem Listing.mem_order (listing : Listing derived) : i ∈ listing.order ↔ i ∈ derived := by
  rw [← Multiset.mem_coe, listing.lists, Finset.mem_val]

/-- **One step** keeps what a datasource knows. -/
theorem isRouted_step (hnames : Function.Injective fun i => (models i).name)
    (h : IsRouted models before source) (last : Step δ derived) :
    IsRouted models (before ++ [last]) (source.step models last) := by
  cases last with
  | add connector => exact isRouted_addConnector h connector
  | register i =>
    rw [step_register]
    refine isRouted_registerAll hnames h rfl [i] fun j => ?_
    rw [Step.Registers, List.mem_singleton, eq_comm]
  | registerAll listing =>
    exact isRouted_registerAll hnames h rfl listing.order fun j => listing.mem_order.symm

/-- **Every run** keeps it, by induction on the last step. -/
theorem isRouted_after (hnames : Function.Injective fun i => (models i).name)
    (steps : List (Step δ derived)) : IsRouted models steps (after models steps) := by
  induction steps using List.reverseRecOn with
  | nil =>
    refine ⟨fun name => rfl, fun i name => ⟨fun hroute => ?_, ?_⟩⟩
    · cases hroute
    · rintro ⟨⟨before, step, later, hsplit, -⟩, -⟩
      exact absurd hsplit.symm (List.append_ne_nil_of_right_ne_nil _ (List.cons_ne_nil _ _))
  | append_singleton before last ih =>
    rw [after_concat]
    exact isRouted_step hnames ih last

/-- A model is served just if it was registered in time, and then by the connector that was added
last. -/
theorem connectorOf_of_isRouted (h : IsRouted models steps source) (i : ι) :
    (Registered models steps i ∧ ∃ connector,
        latest? steps (models i).connector = some connector ∧
        source.connectorOf (models i).name = .ok connector) ∨
      (¬ Registered models steps i ∧
        source.connectorOf (models i).name = .error (.modelNotRegistered (models i).name)) := by
  rw [connectorOf]
  cases hroute : Entries.get? source.routes (models i).name with
  | some name =>
    obtain ⟨hregistered, rfl⟩ := (h.routes i name).mp hroute
    obtain ⟨connector, hlatest⟩ :=
      Option.isSome_iff_exists.mp (isSome_latest?_of_registered models hregistered)
    refine Or.inl ⟨hregistered, connector, hlatest, ?_⟩
    dsimp only
    rw [Datasource.connector, h.connectors, hlatest]
  | none =>
    refine Or.inr ⟨fun hregistered => ?_, rfl⟩
    have hsome := (h.routes i (models i).connector).mpr ⟨hregistered, rfl⟩
    rw [hroute] at hsome
    cases hsome

/-! ## Consistent routing -/

variable (models) in
/-- **Routing is consistent** after steps, in all that can be asked of the datasource next. -/
structure RoutesConsistently (steps : List (Step δ derived)) : Prop where
  /-- A model that was registered in time is served by the connector of its name that was added
  last. -/
  served : ∀ i, Registered models steps i → ∃ connector,
    latest? steps (models i).connector = some connector ∧
    (after models steps).connectorOf (models i).name = .ok connector
  /-- Any other model is not registered. -/
  unserved : ∀ i, ¬ Registered models steps i →
    (after models steps).connectorOf (models i).name = .error (.modelNotRegistered (models i).name)
  /-- A model can be registered if its connector is there. -/
  registers : ∀ i connector, latest? steps (models i).connector = some connector →
    ∃ routed, (after models steps).register (models i) = .ok (connector, routed)
  /-- Otherwise its connector is reported, and the datasource stays as it is. -/
  refuses : ∀ i, latest? steps (models i).connector = none →
    (after models steps).register (models i) = .error (.connectorNotFound (models i).connector) ∧
    (registerInPlace (models i)).run (after models steps)
      = (.error (.connectorNotFound (models i).connector), after models steps)
  /-- Registering all derived models gives the number of those whose connectors are there. -/
  counts : ∀ listing : Listing derived,
    ((after models steps).registerAll (listing.registrations models)).1
      = (derived.filter fun i => (latest? steps (models i).connector).isSome = true).card
  /-- These are routed to their connectors. -/
  routes_derived : ∀ (listing : Listing derived), ∀ i ∈ derived,
    (latest? steps (models i).connector).isSome = true →
    Entries.get? ((after models steps).registerAll (listing.registrations models)).2.routes
      (models i).name = some (models i).connector
  /-- Every other route stays as it is. -/
  keeps_others : ∀ (listing : Listing derived) (name : String),
    (∀ i ∈ derived, (latest? steps (models i).connector).isSome = true →
      (models i).name ≠ name) →
    Entries.get? ((after models steps).registerAll (listing.registrations models)).2.routes name
      = Entries.get? (after models steps).routes name

/-- **Routing is consistent over every run** of a datasource, for models with different names:
whatever connectors are added and replaced and whatever is registered in between. -/
theorem routes_consistently (models : ∀ i, Model (α i))
    (hnames : Function.Injective fun i => (models i).name) (steps : List (Step δ derived)) :
    RoutesConsistently models steps := by
  have h := isRouted_after hnames steps
  have hregister := fun i => register_eq (after models steps) (models i)
  refine ⟨fun i hregistered => ?_, fun i hregistered => ?_, fun i connector hlatest => ?_,
    fun i hlatest => ?_, fun listing => ?_, fun listing i hi hthere => ?_,
    fun listing name hothers => ?_⟩
  · rcases connectorOf_of_isRouted h i with ⟨-, hserved⟩ | ⟨hnot, -⟩
    · exact hserved
    · exact absurd hregistered hnot
  · rcases connectorOf_of_isRouted h i with ⟨hyes, -⟩ | ⟨-, hunserved⟩
    · exact absurd hyes hregistered
    · exact hunserved
  · rw [hregister, h.connectors, hlatest]
    exact ⟨_, rfl⟩
  · have hrefused : (after models steps).register (models i)
        = .error (.connectorNotFound (models i).connector) := by
      rw [hregister, h.connectors, hlatest]
    exact ⟨hrefused, by rw [run_registerInPlace, hrefused]⟩
  · rw [Listing.registrations, count_registerAll, Finset.card_def, Finset.filter_val,
      ← Multiset.countP_eq_card_filter, ← listing.lists, Multiset.coe_countP]
    simp only [h.connectors, Bool.decide_eq_true]
  · rcases routes_registerAll models (after models steps) listing.order (models i).name with
      ⟨j, -, -, hname, hrouted⟩ | ⟨hothers, -⟩
    · obtain rfl : j = i := hnames hname
      exact hrouted
    · rw [← h.connectors] at hthere
      exact absurd rfl (hothers i (listing.mem_order.mpr hi) hthere)
  · rcases routes_registerAll models (after models steps) listing.order name with
      ⟨j, hj, hthere, hname, -⟩ | ⟨-, hkept⟩
    · rw [h.connectors] at hthere
      exact absurd hname (hothers j (listing.mem_order.mp hj) hthere)
    · exact hkept

/-- An archive that is asked for too early is refused, and registering all models leaves it out.
Once it is added its model is registered, and stays so when another archive takes its place. -/
theorem routes_consistently_archive :
    let models : Bool → Model Document := fun archived =>
      if archived then { Model.raw "Archived" "archived" [] with connector := "archive" }
      else .raw "Note" "notes" []
    let both : Listing (Finset.univ : Finset Bool) := ⟨[true, false], rfl⟩
    let early : List (Step String (Finset.univ : Finset Bool)) :=
      [.add ⟨"default", "test", "first"⟩, .register true, .registerAll both]
    let steps : List (Step String (Finset.univ : Finset Bool)) :=
      early ++ [.add ⟨"archive", "cold", "second"⟩, .register true,
        .add ⟨"archive", "warm", "third"⟩]
    (Function.Injective fun archived => (models archived).name) ∧
    RoutesConsistently models steps ∧
    (after models early).connectorOf "Archived" = .error (.modelNotRegistered "Archived") ∧
    (after models steps).connectorOf "Archived" = .ok ⟨"archive", "warm", "third"⟩ ∧
    (after models steps).connectorOf "Note" = .ok ⟨"default", "test", "first"⟩ := by
  intro models both early steps
  have hnames : Function.Injective fun archived => (models archived).name := by decide
  exact ⟨hnames, routes_consistently models hnames steps, rfl, rfl, rfl⟩

end Datasource

end DocStore
