import Ninebot.Hex
import Ninebot.Lib.Latest

/-! # The config flows

    `config_flow.py`: how a scooter becomes a config entry.  What the flows ask
    Home Assistant is a parameter of each step, and so is what it makes of the
    result of a step; of both only what is documented is assumed.

    Many flows may be in progress at a time.  They share the entries, and any of
    them may make the next step.

    This file defines:
    - `NinebotConfigFlow`, with its three steps
    - `Hub`: the entries and the flows in progress
    - `Hub.Documents` and `Hub.Manages`: what is documented of Home Assistant
    - `Hub.Next`: one step of a flow, of the user, or of the coordinator
    - `Hub.Sound`: what holds whatever the order of steps -/

namespace Ninebot

open Coro

/-! ## Discoveries -/

/-- `BluetoothServiceInfoBleak`, as far as the flows read it. -/
structure ServiceInfo where
  address : String
  name : String
  manufacturerData : List (Nat × Bytes)
  deriving DecidableEq, Repr

def manufacturerId : Nat := 16974

/-- `service_info.name or service_info.address` -/
def ServiceInfo.label (self : ServiceInfo) : String :=
  if self.name = "" then self.address else self.name

/-- A display name for a discovered scooter: `_title` -/
def ServiceInfo.title (self : ServiceInfo) : String :=
  match self.manufacturerData.lookup manufacturerId with
  | none => self.label
  | some raw =>
      -- Empty data and unknown models fall through to the name.
      match (parseHardwareId raw).bind (hardwareIds.lookup ·) with
      | none => self.label
      | some model => model ++ " (" ++ self.name ++ ")"

/-- `_is_ninebot` -/
def ServiceInfo.isNinebot (self : ServiceInfo) : Bool :=
  (self.manufacturerData.lookup manufacturerId).isSome

/-! ## One flow -/

inductive FlowExc where
  /-- `AbortFlow`, which Home Assistant turns into a result. -/
  | abortFlow (reason : String)
  | assertionError
  | keyError (key : String)
  deriving DecidableEq, Repr

/-- The forms that a flow shows: the next step is the method of this name. -/
inductive FlowStep where
  | confirm | user
  deriving DecidableEq, Repr

inductive FlowResult where
  /-- `choices` are the addresses that the schema of the form accepts, with their labels. -/
  | form (step : FlowStep) (placeholder : Option String) (choices : List (String × String))
  | abort (reason : String)
  | createEntry (title address name : String)
  deriving DecidableEq, Repr

structure NinebotConfigFlow where
  discovery : Option ServiceInfo := none
  /-- A `dict` from addresses. -/
  discovered : List (String × ServiceInfo) := []
  /-- `unique_id`, kept by Home Assistant in the context of the flow. -/
  uniqueId : Option String := none
  /-- `title_placeholders` of the context. -/
  titlePlaceholder : Option String := none
  deriving DecidableEq, Repr

abbrev F : Type → Type := Coro NinebotConfigFlow FlowExc

/-- What Home Assistant answers in one step of a flow, and what it does there. -/
structure Hass where
  /-- `async_set_unique_id`, with `raise_on_progress` -/
  asyncSetUniqueId : String → Bool → F Unit
  /-- `_abort_if_unique_id_configured` -/
  abortIfUniqueIdConfigured : F Unit
  /-- `_async_current_ids(include_ignore=False)` -/
  currentIds : List String
  /-- `async_discovered_service_info` -/
  discovered : List ServiceInfo

/-- Ask the user to confirm adding a discovered scooter.  `confirmed` says that
    `user_input` is not `None`. -/
def asyncStepConfirm (confirmed : Bool) : F FlowResult := do
  match (← Coro.get).discovery with
  | none => Coro.raise .assertionError
  | some discovery =>
      if confirmed then
        return .createEntry discovery.title discovery.address discovery.name
      else return .form .confirm (some discovery.title) []

/-- Handle a scooter discovered over Bluetooth. -/
def asyncStepBluetooth (hass : Hass) (discoveryInfo : ServiceInfo) : F FlowResult := do
  hass.asyncSetUniqueId discoveryInfo.address true
  hass.abortIfUniqueIdConfigured
  if ¬ discoveryInfo.isNinebot then return .abort "not_supported"
  else
    Coro.modify fun flow => { flow with
      discovery := some discoveryInfo
      titlePlaceholder := some discoveryInfo.title }
    asyncStepConfirm false

/-- `d[key] = value`: a key keeps its place. -/
def setItem {α : Type} (d : List (String × α)) (key : String) (value : α) : List (String × α) :=
  if key ∈ d.map Prod.fst then d.map fun item => if item.1 = key then (key, value) else item
  else d ++ [(key, value)]

/-- The `dict` of the scooters that can be added. -/
def offered (hass : Hass) : List (String × ServiceInfo) :=
  (hass.discovered.filter fun info =>
    ¬ info.address ∈ hass.currentIds ∧ info.isNinebot).foldl
      (fun d info => setItem d info.address info) []

/-- Let the user pick from the scooters currently advertising. -/
def asyncStepUser (hass : Hass) (userInput : Option String) : F FlowResult := do
  match userInput with
  | some address =>
      hass.asyncSetUniqueId address false
      hass.abortIfUniqueIdConfigured
      match (← Coro.get).discovered.lookup address with
      | none => Coro.raise (.keyError address)
      | some serviceInfo =>
          return .createEntry serviceInfo.title address serviceInfo.name
  | none =>
      Coro.modify fun flow => { flow with discovered := offered hass }
      let discovered := (← Coro.get).discovered
      if discovered = [] then return .abort "no_devices_found"
      else
        return .form .user none (discovered.map fun item => (item.1, item.2.title))

/-! ## All flows -/

/-- An entry of this integration, with what Home Assistant keeps beside its data. -/
structure Entry where
  uniqueId : Option String
  /-- The user asked for this scooter to be ignored. -/
  ignored : Bool
  config : ConfigEntry
  deriving DecidableEq, Repr

/-- `_persist_app_key` -/
def Entry.store (self : Entry) (appKey : Bytes) : Entry :=
  { self with config := { self.config with appKey := some (hexLower appKey) } }

/-- A flow in progress, with the last form that it has shown. -/
structure Progress where
  flow : NinebotConfigFlow
  step : FlowStep
  choices : List (String × String)

structure Hub where
  entries : List Entry
  flows : Nat → Option Progress
  /-- What Home Assistant has reported to the flows so far. -/
  reported : List ServiceInfo
  /-- The exceptions of the flows other than `AbortFlow`. -/
  errors : List FlowExc

namespace Hub

/-- The unique ID belongs to an entry that is not ignored. -/
def Configured (self : Hub) (uniqueId : String) : Prop :=
  ∃ entry ∈ self.entries, entry.uniqueId = some uniqueId ∧ entry.ignored = false

/-- What Home Assistant documents of the methods that a step calls: they raise
    nothing but `AbortFlow`. -/
structure Documents (hub : Hub) (hass : Hass) : Prop where
  /-- The unique ID becomes that of the flow. -/
  asyncSetUniqueId : ∀ uniqueId raiseOnProgress flow,
    Triple (hass.asyncSetUniqueId uniqueId raiseOnProgress) flow
      (fun _ flow' => flow' = { flow with uniqueId := some uniqueId })
      (fun e _ => ∃ reason, e = .abortFlow reason) (fun _ => False)
  /-- The flow goes on only if its unique ID is that of no entry that is not ignored. -/
  abortIfUniqueIdConfigured : ∀ flow, Triple hass.abortIfUniqueIdConfigured flow
    (fun _ flow' => flow' = flow ∧
      ∀ uniqueId, flow.uniqueId = some uniqueId → ¬ hub.Configured uniqueId)
    (fun e _ => ∃ reason, e = .abortFlow reason) (fun _ => False)

def setFlow (self : Hub) (id : Nat) (progress : Option Progress) : Hub :=
  { self with flows := fun i => if i = id then progress else self.flows i }

/-- Home Assistant adds the entry of flow `id`.  It replaces one of the same
    unique ID, and aborts the flows in progress that have this unique ID. -/
structure Finishes (before : Hub) (id : Nat) (entry : Entry) (after : Hub) : Prop where
  entries : after.entries =
    (before.entries.filter fun other => other.uniqueId ≠ entry.uniqueId) ++ [entry]
  flows : ∀ i progress, after.flows i = some progress →
    i ≠ id ∧ before.flows i = some progress ∧ progress.flow.uniqueId ≠ entry.uniqueId
  reported : after.reported = before.reported
  errors : after.errors = before.errors

/-- The flow manager: what becomes of a flow after one of its methods. -/
abbrev Manager : Type := Hub → Nat → Res FlowExc FlowResult × NinebotConfigFlow → Hub → Prop

/-- What Home Assistant documents of its flow manager. -/
structure Manages (proceeds : Manager) : Prop where
  /-- A form is shown, and the flow waits for the user. -/
  form : ∀ {hub after : Hub} {id : Nat} {flow : NinebotConfigFlow} {step : FlowStep}
    {placeholder : Option String} {choices : List (String × String)},
    proceeds hub id (.ret (.form step placeholder choices), flow) after →
      after = hub.setFlow id (some ⟨flow, step, choices⟩)
  abort : ∀ {hub after : Hub} {id : Nat} {flow : NinebotConfigFlow} {reason : String},
    proceeds hub id (.ret (.abort reason), flow) after → after = hub.setFlow id none
  /-- This exception ends the flow like a result. -/
  abortFlow : ∀ {hub after : Hub} {id : Nat} {flow : NinebotConfigFlow} {reason : String},
    proceeds hub id (.raised (.abortFlow reason), flow) after → after = hub.setFlow id none
  /-- Any other exception ends the flow, and is reported. -/
  error : ∀ {hub after : Hub} {id : Nat} {flow : NinebotConfigFlow} {e : FlowExc},
    (∀ reason, e ≠ .abortFlow reason) → proceeds hub id (.raised e, flow) after →
      after = { hub.setFlow id none with errors := e :: hub.errors }
  createEntry : ∀ {hub after : Hub} {id : Nat} {flow : NinebotConfigFlow}
    {title address name : String},
    proceeds hub id (.ret (.createEntry title address name), flow) after →
      hub.Finishes id ⟨flow.uniqueId, false, ⟨title, address, some name, none⟩⟩ after

/-- Home Assistant has reported these scooters. -/
def report (self : Hub) (infos : List ServiceInfo) : Hub :=
  { self with reported := infos ++ self.reported }

/-- A step of a flow. -/
inductive FlowNext (proceeds : Manager) (self : Hub) : Hub → Prop
  /-- A scooter is discovered, and a flow begins. -/
  | bluetooth {after : Hub} (id : Nat) (hass : Hass) (info : ServiceInfo) :
      self.flows id = none → self.Documents hass →
      proceeds (self.report [info]) id (asyncStepBluetooth hass info {}) after →
      FlowNext proceeds self after
  /-- The user begins a flow. -/
  | user {after : Hub} (id : Nat) (hass : Hass) :
      self.flows id = none → self.Documents hass →
      proceeds (self.report hass.discovered) id (asyncStepUser hass none {}) after →
      FlowNext proceeds self after
  /-- The user answers the form of a discovery, or looks at it again. -/
  | confirm {after : Hub} (id : Nat) (progress : Progress) (confirmed : Bool) :
      self.flows id = some progress → progress.step = .confirm →
      proceeds self id (asyncStepConfirm confirmed progress.flow) after →
      FlowNext proceeds self after
  /-- The user picks one of the scooters that the form offers, or looks again. -/
  | pick {after : Hub} (id : Nat) (hass : Hass) (progress : Progress) (userInput : Option String) :
      self.flows id = some progress → progress.step = .user → self.Documents hass →
      (∀ address ∈ userInput, address ∈ progress.choices.map Prod.fst) →
      proceeds (self.report hass.discovered) id (asyncStepUser hass userInput progress.flow) after →
      FlowNext proceeds self after

/-- A step in which the user neither removes an entry nor ignores a scooter. -/
inductive Quiet (proceeds : Manager) (self : Hub) : Hub → Prop
  | flow {after : Hub} : FlowNext proceeds self after → Quiet proceeds self after
  | abandon (id : Nat) : Quiet proceeds self (self.setFlow id none)
  /-- The coordinator of an entry stores its pairing key. -/
  | persist (entry : Entry) (appKey : Bytes) : entry.ignored = false →
      Quiet proceeds self { self with entries := self.entries.map fun other =>
        if other = entry then other.store appKey else other }

/-- A step of a flow, of the user, or of a coordinator. -/
inductive Next (proceeds : Manager) (self : Hub) : Hub → Prop
  | quiet {after : Hub} : Quiet proceeds self after → Next proceeds self after
  /-- The user asks for a discovery to be ignored. -/
  | ignore {after : Hub} (id : Nat) (uniqueId title : String) :
      self.Finishes id ⟨some uniqueId, true, ⟨title, "", none, none⟩⟩ after →
      Next proceeds self after
  | remove (entry : Entry) :
      Next proceeds self { self with entries := self.entries.filter (· ≠ entry) }

/-- The states of Home Assistant, from its first start with this integration. -/
inductive Reachable (proceeds : Manager) : Hub → Prop
  | start : Reachable proceeds ⟨[], fun _ => none, [], []⟩
  | next {hub hub' : Hub} : Reachable proceeds hub → hub.Next proceeds hub' →
      Reachable proceeds hub'

end Hub

/-! ## The scooters that are offered -/

section Offered

variable {α : Type} {d : List (String × α)} {key address : String} {value : α} {hass : Hass}

theorem setItem_keys : (setItem d key value).map Prod.fst =
    if key ∈ d.map Prod.fst then d.map Prod.fst else d.map Prod.fst ++ [key] := by
  unfold setItem
  split
  · rw [List.map_map]
    apply List.map_congr_left
    intro item _
    by_cases hkey : item.1 = key
    · simp [hkey]
    · simp [hkey]
  · simp

theorem setItem_nodup (h : (d.map Prod.fst).Nodup) :
    ((setItem d key value).map Prod.fst).Nodup := by
  rw [setItem_keys]
  split
  · exact h
  · next hnew =>
    apply List.Nodup.append h (List.nodup_singleton key)
    rw [List.disjoint_singleton]
    exact hnew

theorem lookup_cons_ite (item : String × α) : (item :: d).lookup address =
    if address = item.1 then some item.2 else d.lookup address := by
  rw [List.lookup_cons]
  by_cases h : address = item.1
  · simp [h]
  · have hbeq : (address == item.1) = false := by simpa using h
    rw [hbeq, if_neg h]

theorem lookup_replaced :
    (d.map fun item => if item.1 = key then (key, value) else item).lookup address =
      if address = key ∧ key ∈ d.map Prod.fst then some value else d.lookup address := by
  induction d with
  | nil => simp
  | cons item d ih =>
    rw [List.map_cons, lookup_cons_ite, lookup_cons_ite, ih]
    by_cases hitem : item.1 = key
    · by_cases haddress : address = key
      · simp [hitem, haddress]
      · simp [hitem, haddress]
    · have hne : ¬ key = item.1 := fun h => hitem h.symm
      by_cases haddress : address = key
      · subst haddress
        simp only [List.map_cons, List.mem_cons, hitem, hne, false_or, if_false]
      · simp [hitem, haddress]

theorem lookup_setItem : (setItem d key value).lookup address =
    if address = key then some value else d.lookup address := by
  unfold setItem
  split
  · next hmem =>
    rw [lookup_replaced]
    by_cases haddress : address = key
    · rw [if_pos ⟨haddress, hmem⟩, if_pos haddress]
    · rw [if_neg fun h => haddress h.1, if_neg haddress]
  · next hnew =>
    rw [List.lookup_append, lookup_cons_ite]
    by_cases haddress : address = key
    · have hnone : d.lookup address = none := by
        rw [List.lookup_eq_none_iff]
        intro item hitem
        have hne : address ≠ item.1 := by
          rintro rfl
          exact hnew (haddress ▸ List.mem_map_of_mem hitem)
        simpa using hne
      rw [hnone, if_pos haddress, if_pos haddress]
      rfl
    · rw [if_neg haddress]
      simp [haddress]

theorem mem_setItem {item : String × α} (h : item ∈ setItem d key value) :
    item = (key, value) ∨ item ∈ d := by
  unfold setItem at h
  split at h
  · obtain ⟨old, hold, rfl⟩ := List.mem_map.mp h
    by_cases hkey : old.1 = key
    · rw [if_pos hkey]
      exact Or.inl rfl
    · rw [if_neg hkey]
      exact Or.inr hold
  · rcases List.mem_append.mp h with hold | hnew
    · exact Or.inr hold
    · exact Or.inl (List.mem_singleton.mp hnew)

/-- Only scooters of this make are offered, under their own addresses. -/
theorem mem_offered {item : String × ServiceInfo} (h : item ∈ offered hass) :
    item.2 ∈ hass.discovered ∧ item.2.address = item.1 ∧ item.2.isNinebot = true ∧
      item.1 ∉ hass.currentIds := by
  -- Each advertisement is put in under its address, and nothing else is.
  have hfold : ∀ (infos : List ServiceInfo) (d : List (String × ServiceInfo)),
      item ∈ infos.foldl (fun d info => setItem d info.address info) d →
      item ∈ d ∨ ∃ info ∈ infos, item = (info.address, info) := by
    intro infos
    induction infos with
    | nil => exact fun _ h => Or.inl h
    | cons info infos ih =>
      intro d h
      rcases ih _ h with hitem | ⟨later, hlater, heq⟩
      · rcases mem_setItem hitem with heq | hold
        · exact Or.inr ⟨info, List.mem_cons_self, heq⟩
        · exact Or.inl hold
      · exact Or.inr ⟨later, List.mem_cons_of_mem _ hlater, heq⟩
  rcases hfold _ _ h with hnil | ⟨info, hinfo, rfl⟩
  · cases hnil
  · obtain ⟨hmem, hkept⟩ := List.mem_filter.mp hinfo
    simp only [decide_eq_true_eq] at hkept
    exact ⟨hmem, rfl, hkept.2, hkept.1⟩

theorem offered_nodup (hass : Hass) : ((offered hass).map Prod.fst).Nodup := by
  have hfold : ∀ (infos : List ServiceInfo) (d : List (String × ServiceInfo)),
      (d.map Prod.fst).Nodup →
      ((infos.foldl (fun d info => setItem d info.address info) d).map Prod.fst).Nodup := by
    intro infos
    induction infos with
    | nil => exact fun _ h => h
    | cons info infos ih => exact fun d h => ih _ (setItem_nodup h)
  exact hfold _ [] List.nodup_nil

/-- The latest advertisement of an address is the one that is offered. -/
theorem lookup_offered (hass : Hass) (address : String) : (offered hass).lookup address =
    latest (fun info => info.address = address) (hass.discovered.filter fun info =>
      ¬ info.address ∈ hass.currentIds ∧ info.isNinebot) := by
  -- Seen from one address, the `dict` is overwritten by the advertisements of that address.
  have hstep : ∀ (d : List (String × ServiceInfo)) (info : ServiceInfo),
      (setItem d info.address info).lookup address =
        if decide (info.address = address) = true then some info else d.lookup address := by
    intro d info
    rw [lookup_setItem]
    simp [eq_comm]
  have hview := view_foldl (fun d : List (String × ServiceInfo) => d.lookup address) hstep []
    (hass.discovered.filter fun info => ¬ info.address ∈ hass.currentIds ∧ info.isNinebot)
  refine hview.trans ?_
  rcases latest _ _ with _ | info
  · rfl
  · rfl

theorem lookup_map {β : Type} (f : α → β) :
    (d.map fun item => (item.1, f item.2)).lookup address = (d.lookup address).map f := by
  induction d with
  | nil => rfl
  | cons item d ih =>
    rw [List.map_cons, lookup_cons_ite, lookup_cons_ite, ih]
    by_cases h : address = item.1
    · simp [h]
    · simp [h]

/-- The form offers every scooter that advertises and is not configured, once,
    and nothing else. -/
theorem asyncStepUser_offers (hass : Hass) (flow : NinebotConfigFlow) :
    ∃ choices : List (String × String), (choices.map Prod.fst).Nodup ∧
      (∀ address, choices.lookup address =
        (latest (fun info => info.address = address) (hass.discovered.filter fun info =>
          ¬ info.address ∈ hass.currentIds ∧ info.isNinebot)).map ServiceInfo.title) ∧
      (asyncStepUser hass none flow).1 = .ret (if choices = [] then .abort "no_devices_found"
        else .form .user none choices) := by
  refine ⟨(offered hass).map fun item => (item.1, item.2.title), ?_, fun address => ?_, ?_⟩
  · rw [List.map_map]
    exact offered_nodup hass
  · rw [lookup_map, lookup_offered]
  · have hrun : asyncStepUser hass none flow =
        (if offered hass = [] then (pure (.abort "no_devices_found") : F FlowResult)
        else pure (.form .user none ((offered hass).map fun item => (item.1, item.2.title))))
          { flow with discovered := offered hass } := rfl
    rw [hrun]
    by_cases hnil : offered hass = []
    · simp [hnil]
    · simp [hnil]

end Offered

/-! ## What holds in every order of steps -/

/-- A flow that has shown a form knows what its next step needs. -/
structure Progress.Sound (progress : Progress) (hub : Hub) : Prop where
  confirm : progress.step = .confirm → ∃ info ∈ hub.reported, progress.flow.discovery = some info ∧
    progress.flow.uniqueId = some info.address ∧ info.isNinebot = true ∧
    ¬ hub.Configured info.address
  user : progress.step = .user →
    progress.choices = (progress.flow.discovered.map fun item => (item.1, item.2.title)) ∧
    ∀ item ∈ progress.flow.discovered, item.2 ∈ hub.reported ∧ item.2.address = item.1 ∧
      item.2.isNinebot = true

/-- An entry that is not ignored was made for a scooter, and can be set up. -/
structure Entry.Sound (entry : Entry) (hub : Hub) : Prop where
  uniqueId : entry.uniqueId = some entry.config.address
  scooter : ∃ info ∈ hub.reported, info.isNinebot = true ∧ info.address = entry.config.address ∧
    entry.config.name = some info.name ∧ entry.config.title = info.title
  setup : ∃ appKey, entry.config.storedKey = .ok appKey

/-- What a step of a flow may return. -/
def FlowResult.Sound (self : FlowResult) (hub : Hub) (flow : NinebotConfigFlow) : Prop :=
  match self with
  | .form step _ choices => Progress.Sound ⟨flow, step, choices⟩ hub
  | .abort _ => True
  | .createEntry title address name =>
      flow.uniqueId = some address ∧ ¬ hub.Configured address ∧
        ∃ info ∈ hub.reported, info.isNinebot = true ∧ info.address = address ∧
          info.name = name ∧ info.title = title

structure Hub.Sound (hub : Hub) : Prop where
  entries : ∀ entry ∈ hub.entries, entry.ignored = false → entry.Sound hub
  nodup : (hub.entries.map (·.uniqueId)).Nodup
  flows : ∀ id progress, hub.flows id = some progress → progress.Sound hub
  errors : hub.errors = []

section Sound

variable {proceeds : Hub.Manager} {hub after : Hub} {hass : Hass} {info : ServiceInfo}
  {flow : NinebotConfigFlow} {id : Nat}

/-! ### Steps of a flow -/

theorem asyncStepConfirm_sound (confirmed : Bool) (hmem : info ∈ hub.reported)
    (hdiscovery : flow.discovery = some info) (hid : flow.uniqueId = some info.address)
    (hninebot : info.isNinebot = true) (hnew : ¬ hub.Configured info.address) :
    Triple (asyncStepConfirm confirmed) flow (fun result flow' => result.Sound hub flow')
      (fun e _ => ∃ reason, e = .abortFlow reason) (fun _ => False) := by
  apply Triple.get_bind
  rw [hdiscovery]
  by_cases hconfirmed : confirmed = true
  · simp only [hconfirmed, if_true]
    exact Triple.pure ⟨hid, hnew, info, hmem, hninebot, rfl, rfl, rfl⟩
  · simp only [hconfirmed]
    exact Triple.pure ⟨fun _ => ⟨info, hmem, hdiscovery, hid, hninebot, hnew⟩, nofun⟩

/-- The flow goes on only with a unique ID that is not configured. -/
theorem Hub.Documents.unconfigured (h : hub.Documents hass) (uniqueId : String)
    (raiseOnProgress : Bool) (flow : NinebotConfigFlow) :
    Triple (do
        hass.asyncSetUniqueId uniqueId raiseOnProgress
        hass.abortIfUniqueIdConfigured) flow
      (fun _ flow' => flow' = { flow with uniqueId := some uniqueId } ∧ ¬ hub.Configured uniqueId)
      (fun e _ => ∃ reason, e = .abortFlow reason) (fun _ => False) := by
  apply Triple.bind (h.asyncSetUniqueId uniqueId raiseOnProgress flow)
  rintro _ flow' rfl
  apply (h.abortIfUniqueIdConfigured _).mono_ret
  rintro _ flow'' ⟨rfl, hno⟩
  exact ⟨rfl, hno uniqueId rfl⟩

theorem asyncStepBluetooth_sound (hdocuments : hub.Documents hass) (hmem : info ∈ hub.reported) :
    Triple (asyncStepBluetooth hass info) flow (fun result flow' => result.Sound hub flow')
      (fun e _ => ∃ reason, e = .abortFlow reason) (fun _ => False) := by
  have hstart := hdocuments.unconfigured info.address true flow
  unfold asyncStepBluetooth
  rw [← bind_assoc']
  apply Triple.bind hstart
  rintro _ flow' ⟨rfl, hno⟩
  by_cases hninebot : info.isNinebot = true
  · simp only [hninebot, not_true, if_false]
    apply Triple.modify_bind
    exact asyncStepConfirm_sound false hmem rfl rfl hninebot hno
  · simp only [hninebot]
    exact Triple.pure trivial

/-- The first form of the user's flow, or none. -/
theorem asyncStepUser_none (hreported : ∀ info ∈ hass.discovered, info ∈ hub.reported) :
    Triple (asyncStepUser hass none) flow (fun result flow' => result.Sound hub flow')
      (fun e _ => ∃ reason, e = .abortFlow reason) (fun _ => False) := by
  apply Triple.modify_bind
  apply Triple.get_bind
  by_cases hnil : offered hass = []
  · simp only [hnil, if_true]
    exact Triple.pure trivial
  · simp only [hnil, if_false]
    refine Triple.pure ⟨nofun, fun _ => ⟨rfl, fun item hitem => ?_⟩⟩
    obtain ⟨hmem, haddress, hninebot, _⟩ := mem_offered hitem
    exact ⟨hreported _ hmem, haddress, hninebot⟩

/-- What the form offers is in the `dict`. -/
theorem asyncStepUser_some {address : String} {choices : List (String × String)}
    (hdocuments : hub.Documents hass) (hsound : Progress.Sound ⟨flow, .user, choices⟩ hub)
    (hpicked : address ∈ choices.map Prod.fst) :
    Triple (asyncStepUser hass (some address)) flow (fun result flow' => result.Sound hub flow')
      (fun e _ => ∃ reason, e = .abortFlow reason) (fun _ => False) := by
  obtain ⟨hchoices, hdiscovered⟩ := hsound.user rfl
  have hstart := hdocuments.unconfigured address false flow
  unfold asyncStepUser
  dsimp only
  rw [← bind_assoc' (hass.asyncSetUniqueId address false)]
  apply Triple.bind hstart
  rintro _ flow' ⟨rfl, hno⟩
  apply Triple.get_bind
  rcases hlookup : flow.discovered.lookup address with _ | picked
  · -- The schema accepts no other address.
    rw [List.lookup_eq_none_iff] at hlookup
    dsimp only at hchoices
    rw [hchoices, List.map_map] at hpicked
    obtain ⟨item, hitem, rfl⟩ := List.mem_map.mp hpicked
    have hne := hlookup item hitem
    simp at hne
  · have hitem : (address, picked) ∈ flow.discovered := by
      obtain ⟨before, later, heq, _⟩ := List.lookup_eq_some_iff.mp hlookup
      rw [heq]
      exact List.mem_append_right _ List.mem_cons_self
    obtain ⟨hmem, haddress, hninebot⟩ := hdiscovered _ hitem
    exact Triple.pure ⟨rfl, hno, picked, hmem, hninebot, haddress, rfl, rfl⟩

/-! ### Steps of the hub -/

theorem Progress.Sound.mono {progress : Progress} (h : progress.Sound hub)
    (hreported : hub.reported ⊆ after.reported)
    (hconfigured : ∀ uniqueId, progress.flow.uniqueId = some uniqueId → after.Configured uniqueId →
      hub.Configured uniqueId) : progress.Sound after := by
  refine ⟨fun hstep => ?_, fun hstep => ?_⟩
  · obtain ⟨info, hmem, hdiscovery, hid, hninebot, hnew⟩ := h.confirm hstep
    exact ⟨info, hreported hmem, hdiscovery, hid, hninebot, fun hc => hnew (hconfigured _ hid hc)⟩
  · obtain ⟨hchoices, hdiscovered⟩ := h.user hstep
    refine ⟨hchoices, fun item hitem => ?_⟩
    obtain ⟨hmem, hitem⟩ := hdiscovered item hitem
    exact ⟨hreported hmem, hitem⟩

theorem Entry.Sound.mono {entry : Entry} (h : entry.Sound hub)
    (hreported : hub.reported ⊆ after.reported) : entry.Sound after := by
  obtain ⟨info, hmem, hinfo⟩ := h.scooter
  exact ⟨h.uniqueId, ⟨info, hreported hmem, hinfo⟩, h.setup⟩

theorem Entry.Sound.store {entry : Entry} (h : entry.Sound hub) (appKey : Bytes) :
    (entry.store appKey).Sound hub := by
  refine ⟨h.uniqueId, h.scooter, ?_⟩
  show ∃ key, (if hexLower appKey = "" then Except.ok none
    else (fromHex (hexLower appKey).toList).map some) = .ok key
  rw [fromHex_hexLower]
  split
  · exact ⟨none, rfl⟩
  · exact ⟨some appKey, rfl⟩

namespace Hub

theorem Documents.report (h : hub.Documents hass) (infos : List ServiceInfo) :
    (hub.report infos).Documents hass :=
  ⟨h.asyncSetUniqueId, h.abortIfUniqueIdConfigured⟩

theorem Sound.report (h : hub.Sound) (infos : List ServiceInfo) : (hub.report infos).Sound := by
  have hreported : hub.reported ⊆ (hub.report infos).reported := List.subset_append_right _ _
  refine ⟨fun entry hmem hignored => ?_, h.nodup, fun id progress hflow => ?_, h.errors⟩
  · exact (h.entries entry hmem hignored).mono hreported
  · exact (h.flows id progress hflow).mono hreported fun _ _ h => h

theorem Sound.setFlow (h : hub.Sound) {progress : Option Progress}
    (hprogress : ∀ p ∈ progress, p.Sound hub) : (hub.setFlow id progress).Sound := by
  have hsame : ∀ p : Progress, p.Sound hub → p.Sound (hub.setFlow id progress) :=
    fun p hp => hp.mono (List.Subset.refl _) fun _ _ h => h
  refine ⟨fun entry hmem hignored => ?_, h.nodup, fun i p hflow => ?_, h.errors⟩
  · exact (h.entries entry hmem hignored).mono (List.Subset.refl _)
  · apply hsame
    unfold Hub.setFlow at hflow
    dsimp only at hflow
    split at hflow
    · exact hprogress p hflow
    · exact h.flows i p hflow

/-- The flows that would have made the same entry are gone. -/
theorem Finishes.sound {entry : Entry} (h : hub.Sound) (hfinishes : hub.Finishes id entry after)
    (hentry : entry.ignored = false → entry.Sound hub) : after.Sound := by
  have hreported : hub.reported ⊆ after.reported := by
    rw [hfinishes.reported]
    exact List.Subset.refl _
  refine ⟨fun other hmem hignored => ?_, ?_, fun i progress hflow => ?_, ?_⟩
  · rw [hfinishes.entries] at hmem
    rcases List.mem_append.mp hmem with hold | hnew
    · exact (h.entries other (List.mem_filter.mp hold).1 hignored).mono hreported
    · obtain rfl := List.mem_singleton.mp hnew
      exact (hentry hignored).mono hreported
  · -- The entry of the same unique ID has been replaced.
    rw [hfinishes.entries, List.map_append]
    apply List.Nodup.append
    · exact h.nodup.sublist (List.filter_sublist.map _)
    · exact List.nodup_singleton _
    · rw [List.map_singleton, List.disjoint_singleton]
      intro hmem
      obtain ⟨other, hother, heq⟩ := List.mem_map.mp hmem
      have hne := (List.mem_filter.mp hother).2
      simp [heq] at hne
  · obtain ⟨_, hbefore, hne⟩ := hfinishes.flows i progress hflow
    apply (h.flows i progress hbefore).mono hreported
    -- A flow of another unique ID does not notice the new entry.
    rintro uniqueId hid ⟨other, hmem, hother, hignored⟩
    rw [hfinishes.entries] at hmem
    rcases List.mem_append.mp hmem with hold | hnew
    · exact ⟨other, (List.mem_filter.mp hold).1, hother, hignored⟩
    · obtain rfl := List.mem_singleton.mp hnew
      exact absurd (hid.trans hother.symm) hne
  · rw [hfinishes.errors]
    exact h.errors

/-- What a flow asks for when its step returns, and what it never does. -/
theorem Manages.sound (hmanages : Manages proceeds) {m : F FlowResult} (h : hub.Sound)
    (hm : Triple m flow (fun result flow' => result.Sound hub flow')
      (fun e _ => ∃ reason, e = .abortFlow reason) (fun _ => False))
    (hproceeds : proceeds hub id (m flow) after) :
    after.Sound ∧ ∀ entry ∈ hub.entries, entry.ignored = false → entry ∈ after.entries := by
  have hgone : (hub.setFlow id none).Sound := h.setFlow (by simp)
  rcases hrun : m flow with ⟨result | e | _, flow'⟩
  · rw [hrun] at hproceeds
    have hresult := hm.ret_of hrun
    cases result with
    | form step placeholder choices =>
      rw [hmanages.form hproceeds]
      refine ⟨h.setFlow fun p hp => ?_, fun _ hmem _ => hmem⟩
      cases hp
      exact hresult
    | abort reason =>
      rw [hmanages.abort hproceeds]
      exact ⟨hgone, fun _ hmem _ => hmem⟩
    | createEntry title address name =>
      have hfinishes := hmanages.createEntry hproceeds
      obtain ⟨hid, hnew, info, hmem, hninebot, rfl, rfl, rfl⟩ := hresult
      have hentry : Entry.Sound ⟨flow'.uniqueId, false, ⟨info.title, info.address, some info.name,
          none⟩⟩ hub := ⟨hid, ⟨info, hmem, hninebot, rfl, rfl, rfl⟩, none, rfl⟩
      refine ⟨hfinishes.sound h fun _ => hentry, ?_⟩
      intro entry hentry hignored
      rw [hfinishes.entries]
      apply List.mem_append_left
      apply List.mem_filter.mpr
      refine ⟨hentry, decide_eq_true ?_⟩
      intro hsame
      -- The flow has made sure that the unique ID is not configured.
      exact hnew ⟨entry, hentry, hsame.trans hid, hignored⟩
  · -- A step raises nothing but `AbortFlow`.
    obtain ⟨reason, rfl⟩ := hm.raised_of hrun
    rw [hrun] at hproceeds
    rw [hmanages.abortFlow hproceeds]
    exact ⟨hgone, fun _ hmem _ => hmem⟩
  · unfold Triple at hm
    rw [hrun] at hm
    exact hm.elim

theorem FlowNext.sound (hmanages : Manages proceeds) (h : hub.Sound)
    (hnext : hub.FlowNext proceeds after) :
    after.Sound ∧ ∀ entry ∈ hub.entries, entry.ignored = false → entry ∈ after.entries := by
  cases hnext with
  | bluetooth id hass info _ hdocuments hproceeds =>
    -- What a step is shown counts as reported before it runs.
    have hmem : info ∈ (hub.report [info]).reported := List.mem_cons_self
    have hsound := hmanages.sound (h.report [info])
      (asyncStepBluetooth_sound (hdocuments.report [info]) hmem) hproceeds
    exact hsound
  | user id hass _ _ hproceeds =>
    have hreported : ∀ info ∈ hass.discovered, info ∈ (hub.report hass.discovered).reported :=
      fun _ hmem => List.mem_append_left _ hmem
    have hsound := hmanages.sound (h.report _) (asyncStepUser_none hreported) hproceeds
    exact hsound
  | confirm id progress confirmed hflow hstep hproceeds =>
    obtain ⟨info, hmem, hdiscovery, hid, hninebot, hnew⟩ :=
      (h.flows id progress hflow).confirm hstep
    exact hmanages.sound h
      (asyncStepConfirm_sound confirmed hmem hdiscovery hid hninebot hnew) hproceeds
  | pick id hass progress userInput hflow hstep hdocuments hinput hproceeds =>
    have hreported := h.report hass.discovered
    cases userInput with
    | none =>
      have hsound := hmanages.sound hreported
        (asyncStepUser_none fun _ hmem => List.mem_append_left _ hmem) hproceeds
      exact hsound
    | some address =>
      have hprogress : Progress.Sound ⟨progress.flow, .user, progress.choices⟩
          (hub.report hass.discovered) := by
        rw [← hstep]
        exact hreported.flows id progress hflow
      have hsound := hmanages.sound hreported
        (asyncStepUser_some (hdocuments.report _) hprogress (hinput address rfl)) hproceeds
      exact hsound

theorem Sound.setEntries (h : hub.Sound) {entries : List Entry}
    (hentries : ∀ entry ∈ entries, entry.ignored = false → entry.Sound hub)
    (hnodup : (entries.map (·.uniqueId)).Nodup)
    (hconfigured : ∀ entry ∈ entries, entry.ignored = false →
      ∃ old ∈ hub.entries, old.uniqueId = entry.uniqueId ∧ old.ignored = false) :
    Sound { hub with entries := entries } := by
  have hreported : hub.reported ⊆ ({ hub with entries := entries } : Hub).reported :=
    List.Subset.refl _
  refine ⟨fun entry hmem hignored => ?_, hnodup, fun i progress hflow => ?_, h.errors⟩
  · exact (hentries entry hmem hignored).mono hreported
  · apply (h.flows i progress hflow).mono hreported
    rintro uniqueId _ ⟨entry, hmem, hid, hignored⟩
    obtain ⟨old, hold, hsame, hkept⟩ := hconfigured entry hmem hignored
    exact ⟨old, hold, hsame.trans hid, hkept⟩

theorem Quiet.sound (hmanages : Manages proceeds) (h : hub.Sound)
    (hquiet : hub.Quiet proceeds after) : after.Sound := by
  cases hquiet with
  | flow hflow => exact (hflow.sound hmanages h).1
  | abandon id => exact h.setFlow (by simp)
  | persist entry appKey _ =>
    -- Neither the unique ID of an entry nor its address changes.
    have hids : ∀ other : Entry,
        (if other = entry then other.store appKey else other).uniqueId = other.uniqueId := by
      intro other
      split <;> rfl
    have hflags : ∀ other : Entry,
        (if other = entry then other.store appKey else other).ignored = other.ignored := by
      intro other
      split <;> rfl
    apply h.setEntries
    · intro new hnew hignored
      obtain ⟨other, hmem, rfl⟩ := List.mem_map.mp hnew
      rw [hflags] at hignored
      split
      · exact (h.entries other hmem hignored).store appKey
      · exact h.entries other hmem hignored
    · rw [List.map_map]
      have hsame : (fun other : Entry => other.uniqueId) ∘
          (fun other => if other = entry then other.store appKey else other) =
            fun other => other.uniqueId := funext hids
      rw [hsame]
      exact h.nodup
    · intro new hnew hignored
      obtain ⟨other, hmem, rfl⟩ := List.mem_map.mp hnew
      rw [hflags] at hignored
      exact ⟨other, hmem, (hids other).symm, hignored⟩

theorem Next.sound (hmanages : Manages proceeds) (h : hub.Sound)
    (hnext : hub.Next proceeds after) : after.Sound := by
  cases hnext with
  | quiet hquiet => exact hquiet.sound hmanages h
  | ignore id uniqueId title hfinishes => exact hfinishes.sound h (by simp)
  | remove entry =>
    apply h.setEntries
    · exact fun other hmem => h.entries other (List.mem_filter.mp hmem).1
    · exact h.nodup.sublist (List.filter_sublist.map _)
    · exact fun other hmem hignored => ⟨other, (List.mem_filter.mp hmem).1, rfl, hignored⟩

theorem Reachable.sound (hmanages : Manages proceeds) (h : Reachable proceeds hub) :
    hub.Sound := by
  induction h with
  | start => exact ⟨by simp, List.nodup_nil, by simp, rfl⟩
  | next _ hnext ih => exact hnext.sound hmanages ih

end Hub

/-- In every order of steps no flow fails, no unique ID is there twice, and each
    entry was made for a scooter that Home Assistant has reported, and can be
    set up. -/
theorem flows_sound (hmanages : Hub.Manages proceeds) (h : Hub.Reachable proceeds hub) :
    hub.errors = [] ∧ (hub.entries.map (·.uniqueId)).Nodup ∧
      ∀ entry ∈ hub.entries, entry.ignored = false →
        entry.uniqueId = some entry.config.address ∧
        (∃ info ∈ hub.reported, info.isNinebot = true ∧ info.address = entry.config.address ∧
          entry.config.name = some info.name ∧ entry.config.title = info.title) ∧
        ∃ appKey, entry.config.storedKey = .ok appKey := by
  have hsound := h.sound hmanages
  refine ⟨hsound.errors, hsound.nodup, fun entry hmem hignored => ?_⟩
  have hentry := hsound.entries entry hmem hignored
  exact ⟨hentry.uniqueId, hentry.scooter, hentry.setup⟩

/-- The same entry later, with a pairing key if it had one. -/
structure Entry.Continues (entry later : Entry) : Prop where
  uniqueId : later.uniqueId = entry.uniqueId
  ignored : later.ignored = entry.ignored
  title : later.config.title = entry.config.title
  address : later.config.address = entry.config.address
  name : later.config.name = entry.config.name
  keyed : entry.config.appKey.isSome = true → later.config.appKey.isSome = true

theorem Entry.Continues.refl (entry : Entry) : entry.Continues entry :=
  ⟨rfl, rfl, rfl, rfl, rfl, id⟩

theorem Entry.Continues.trans {entry later latest : Entry} (h : entry.Continues later)
    (h' : later.Continues latest) : entry.Continues latest :=
  ⟨h'.uniqueId.trans h.uniqueId, h'.ignored.trans h.ignored, h'.title.trans h.title,
    h'.address.trans h.address, h'.name.trans h.name, fun hkeyed => h'.keyed (h.keyed hkeyed)⟩

theorem Entry.store_continues (entry : Entry) (appKey : Bytes) :
    entry.Continues (entry.store appKey) :=
  ⟨rfl, rfl, rfl, rfl, rfl, fun _ => rfl⟩

/-- Step lemma: only the user takes an entry away. -/
theorem Hub.Quiet.continues (hmanages : Hub.Manages proceeds) (h : hub.Sound)
    (hquiet : hub.Quiet proceeds after) :
    ∀ entry ∈ hub.entries, entry.ignored = false →
      ∃ later ∈ after.entries, entry.Continues later := by
  intro entry hmem hignored
  cases hquiet with
  | flow hflow => exact ⟨entry, (hflow.sound hmanages h).2 entry hmem hignored, .refl entry⟩
  | abandon id => exact ⟨entry, hmem, .refl entry⟩
  | persist target appKey _ =>
    refine ⟨_, List.mem_map_of_mem hmem, ?_⟩
    split
    · exact entry.store_continues appKey
    · exact .refl entry

/-- Whatever the flows do and the coordinators store, in any order: an entry
    stays with its scooter until the user removes or ignores it, and its
    pairing key is not lost. -/
theorem flows_keep_entries (hmanages : Hub.Manages proceeds) (h : Hub.Reachable proceeds hub)
    (hrun : Relation.ReflTransGen (Hub.Quiet proceeds) hub after) :
    ∀ entry ∈ hub.entries, entry.ignored = false →
      ∃ later ∈ after.entries, entry.Continues later := by
  have hkept : Hub.Reachable proceeds after ∧ ∀ entry ∈ hub.entries, entry.ignored = false →
      ∃ later ∈ after.entries, entry.Continues later := by
    -- By induction on the run: the next step needs what holds in every reachable state.
    induction hrun with
    | refl => exact ⟨h, fun entry hmem _ => ⟨entry, hmem, .refl entry⟩⟩
    | tail _ hquiet ih =>
      obtain ⟨hreachable, hentries⟩ := ih
      refine ⟨hreachable.next (.quiet hquiet), fun entry hmem hignored => ?_⟩
      obtain ⟨later, hlater, hcontinues⟩ := hentries entry hmem hignored
      obtain ⟨latest, hlatest, hcontinues'⟩ := hquiet.continues hmanages
        (hreachable.sound hmanages) later hlater (hcontinues.ignored.trans hignored)
      exact ⟨latest, hlatest, hcontinues.trans hcontinues'⟩
  exact hkept.2

end Sound

/-! ## A discovery that is confirmed -/

namespace Hub

/-- What a Home Assistant with these entries does. -/
def hassOf (self : Hub) (inProgress : String → Bool) (discovered : List ServiceInfo) : Hass where
  asyncSetUniqueId uniqueId raiseOnProgress :=
    if raiseOnProgress && inProgress uniqueId then
      Coro.raise (.abortFlow "already_in_progress")
    else Coro.modify fun flow => { flow with uniqueId := some uniqueId }
  abortIfUniqueIdConfigured := do
    let flow ← Coro.get
    if self.entries.any fun entry => flow.uniqueId.isSome && entry.uniqueId == flow.uniqueId &&
      !entry.ignored then Coro.raise (.abortFlow "already_configured")
    else return ()
  currentIds := (self.entries.filter (!·.ignored)).filterMap Entry.uniqueId
  discovered := discovered

theorem hassOf_documents (self : Hub) (inProgress : String → Bool)
    (discovered : List ServiceInfo) : self.Documents (self.hassOf inProgress discovered) where
  asyncSetUniqueId uniqueId raiseOnProgress flow := by
    unfold hassOf
    dsimp only
    split
    · exact Triple.raise ⟨_, rfl⟩
    · exact Triple.modify rfl
  abortIfUniqueIdConfigured flow := by
    apply Triple.get_bind
    by_cases hany : (self.entries.any fun entry => flow.uniqueId.isSome &&
        entry.uniqueId == flow.uniqueId && !entry.ignored) = true
    · rw [if_pos hany]
      exact Triple.raise ⟨_, rfl⟩
    · rw [if_neg hany]
      refine Triple.pure ⟨rfl, ?_⟩
      rintro uniqueId hid ⟨entry, hmem, hentry, hignored⟩
      apply hany
      rw [List.any_eq_true]
      exact ⟨entry, hmem, by simp [hid, hentry, hignored]⟩

/-- What becomes of flow `id` after one of its methods, and of nothing else. -/
inductive Proceeds : Manager
  | form {self : Hub} {id : Nat} {flow : NinebotConfigFlow} (step : FlowStep)
      (placeholder : Option String) (choices : List (String × String)) :
      Proceeds self id (.ret (.form step placeholder choices), flow)
        (self.setFlow id (some ⟨flow, step, choices⟩))
  | abort {self : Hub} {id : Nat} {flow : NinebotConfigFlow} (reason : String) :
      Proceeds self id (.ret (.abort reason), flow) (self.setFlow id none)
  | abortFlow {self : Hub} {id : Nat} {flow : NinebotConfigFlow} (reason : String) :
      Proceeds self id (.raised (.abortFlow reason), flow) (self.setFlow id none)
  | error {self : Hub} {id : Nat} {flow : NinebotConfigFlow} (e : FlowExc) :
      (∀ reason, e ≠ .abortFlow reason) →
      Proceeds self id (.raised e, flow)
        { self.setFlow id none with errors := e :: self.errors }
  | createEntry {self after : Hub} {id : Nat} {flow : NinebotConfigFlow}
      {title address name : String} :
      self.Finishes id ⟨flow.uniqueId, false, ⟨title, address, some name, none⟩⟩ after →
      Proceeds self id (.ret (.createEntry title address name), flow) after

theorem proceeds_manages : Manages Proceeds where
  form h := by
    cases h
    rfl
  abort h := by
    cases h
    rfl
  abortFlow h := by
    cases h with
    | abortFlow reason => rfl
    | error e hother => exact absurd rfl (hother _)
  error hother h := by
    cases h with
    | abortFlow reason => exact absurd rfl (hother reason)
    | error e _ => rfl
  createEntry h := by
    cases h with
    | createEntry hfinishes => exact hfinishes

def scooterInfo : ServiceInfo :=
  ⟨"C0:FF:EE:00:00:01", "E2 Pro 0216", [(manufacturerId, [0x8D, 0x02, 0x00, 0x00, 0x00, 0x70])]⟩

/-- The entry that is made of the discovery. -/
def scooterEntry : Entry :=
  ⟨some "C0:FF:EE:00:00:01", false, ⟨"eKickScooter E2 Pro (E2 Pro 0216)", "C0:FF:EE:00:00:01",
    some "E2 Pro 0216", none⟩⟩

def confirmed : Hub := ⟨[scooterEntry], fun _ => none, [scooterInfo], []⟩

theorem confirmed_reachable : Reachable Proceeds confirmed := by
  have hbluetooth : FlowNext Proceeds ⟨[], fun _ => none, [], []⟩ _ :=
    .bluetooth 0 (hassOf ⟨[], fun _ => none, [], []⟩ (fun _ => false) []) scooterInfo rfl
      (hassOf_documents _ _ _) (.form .confirm (some scooterInfo.title) [])
  have hfirst := Reachable.start.next (.quiet (.flow hbluetooth))
  exact hfirst.next (.quiet (.flow (.confirm 0 _ true rfl rfl
    (.createEntry ⟨rfl, by simp [confirmed], rfl, rfl⟩))))

theorem flows_sound_confirmed :
    confirmed.errors = [] ∧ (confirmed.entries.map (·.uniqueId)).Nodup ∧
      ∀ entry ∈ confirmed.entries, entry.ignored = false →
        entry.uniqueId = some entry.config.address ∧
        (∃ info ∈ confirmed.reported, info.isNinebot = true ∧ info.address = entry.config.address ∧
          entry.config.name = some info.name ∧ entry.config.title = info.title) ∧
        ∃ appKey, entry.config.storedKey = .ok appKey :=
  flows_sound proceeds_manages confirmed_reachable

/-- The coordinator of the entry has stored its key. -/
def stored : Hub :=
  { confirmed with entries := confirmed.entries.map fun other =>
      if other = scooterEntry then other.store (List.replicate 16 0) else other }

/-- The same scooter is discovered again, and the user looks for scooters. -/
def seenAgain : Hub :=
  (((stored.report [scooterInfo]).setFlow 1 none).report [scooterInfo]).setFlow 2 none

/-- The flow of the discovery is aborted, and the other one has none to offer. -/
theorem flows_keep_entries_confirmed :
    ∃ later ∈ seenAgain.entries, scooterEntry.Continues later := by
  have hstored : Quiet Proceeds confirmed stored :=
    .persist scooterEntry (List.replicate 16 0) rfl
  have hbluetooth : Quiet Proceeds stored ((stored.report [scooterInfo]).setFlow 1 none) :=
    .flow (.bluetooth 1 (stored.hassOf (fun _ => false) []) scooterInfo rfl
      (hassOf_documents _ _ _) (.abortFlow "already_configured"))
  have huser : Quiet Proceeds ((stored.report [scooterInfo]).setFlow 1 none) seenAgain :=
    .flow (.user 2 (hassOf _ (fun _ => false) [scooterInfo]) rfl (hassOf_documents _ _ _)
      (.abort "no_devices_found"))
  exact flows_keep_entries proceeds_manages confirmed_reachable
    (((Relation.ReflTransGen.single hstored).tail hbluetooth).tail huser) scooterEntry
    List.mem_cons_self rfl

end Hub

end Ninebot
