import FlOp.Core.Numbers
import FlOp.Library.ParallelMachines
import FlOp.Library.Sweep
import FlOp.Planning.Airspace

/-! # Charging queues of the hubs

After a plan is solved, each asset that was used is recharged at its home hub. Sessions arrive when
the assets finish, take the bay that is free first and wait while all bays are busy. Energies and
durations are never negative: an asset is busy for no negative time, and a rate that is not positive
makes no session. How many sessions charge or wait at once is counted by sweeping over the ends of
half-open intervals, as for the flights of the airspace.
-/

namespace FlOp.Planning

open Canonical FlOp.Core Library

def energyRateTerm : String := "urn:xopt:capability:energy-consumption-rate"

def energyCapacityTerm : String := "urn:xopt:capability:energy-capacity"

/-- Charging-station constants. -/
structure ChargingSettings where
  chargingDefaultSlots : ℤ := 2
  chargingDefaultPowerKw : ℚ := 50
  chargingMinSessionKwh : ℚ := 1 / 2
  chargingTurnaroundRiskS : ℚ := 7200

/-- What charging reads of a depot. -/
structure ChargingHub where
  locationId : String
  chargingSlots : Option ℤ := none
  chargingPowerKw : Option ℚ := none

/-- One asset's recharge demand. -/
structure ChargingSession where
  assetId : String
  hubId : String
  energyKwh : ℚ≥0
  arrivalS : ℚ
  durationS : ℚ≥0 := 0
deriving DecidableEq

/-- A session in the bay it occupies. -/
structure ChargedSession where
  session : ChargingSession
  slot : ℕ
  chargeStartS : ℚ
  chargeEndS : ℚ
deriving DecidableEq

namespace ChargedSession

variable (charged : ChargedSession)

def waitS : ℚ := max 0 (charged.chargeStartS - charged.session.arrivalS)

/-- Queue wait and charge time together. -/
def turnaroundS : ℚ := max 0 (charged.chargeEndS - charged.session.arrivalS)

/-- The session charges; its end does not count. -/
def ChargesAt (t : ℚ) : Prop := charged.chargeStartS ≤ t ∧ t < charged.chargeEndS

instance (t : ℚ) : Decidable (charged.ChargesAt t) := inferInstanceAs (Decidable (_ ∧ _))

end ChargedSession

section Demands

variable (geometry : Geometry) (assignments : List Assignment)

/-- Seconds each prime mover is busy for. -/
def busySeconds : Dict String ℚ≥0 :=
  assignments.foldl (fun busy a =>
    match a.assetIds with
    | [] => busy
    | assetId :: _ =>
      busy.set assetId (busy.getD assetId 0 + (a.plannedFinish - a.plannedStart).toNNRat)) .empty

/-- The last time each prime mover returns. -/
def lastReturn : Dict String ℚ :=
  assignments.foldl (fun arrival a =>
    match a.assetIds with
    | [] => arrival
    | assetId :: _ =>
      arrival.set assetId (max (arrival.getD assetId a.plannedFinish) a.plannedFinish)) .empty

/-- The energy an asset spent while it was busy, at most what it holds. -/
def spentEnergy (asset : Asset) (busy : ℚ≥0) : ℚ≥0 :=
  let energy := (capabilityFloat geometry asset energyRateTerm).toNNRat * (busy / 3600)
  let capacity := capabilityFloat geometry asset energyCapacityTerm
  if 0 < capacity then min energy capacity.toNNRat else energy

/-- The recharge each used asset needs, before the energy is rounded. -/
def energyDemands (assetById : Dict String Asset) : List ChargingSession :=
  (busySeconds assignments).entries.filterMap fun entry =>
    (assetById.get? entry.1).bind fun asset => asset.homeDepotRef.bind fun hub =>
      if capabilityFloat geometry asset energyRateTerm ≤ 0 then none
      else some
        { assetId := entry.1
          hubId := hub
          energyKwh := spentEnergy geometry asset entry.2
          arrivalS := (lastReturn assignments).getD entry.1 0 }

/-- The sessions of the known hubs that are not negligible. -/
def chargingSessions (settings : ChargingSettings) (assetById : Dict String Asset)
    (hubById : Dict String ChargingHub) : List ChargingSession :=
  ((energyDemands geometry assignments assetById).filter fun demand =>
    demand.hubId ∈ hubById.keys ∧ settings.chargingMinSessionKwh ≤ demand.energyKwh).map
    fun demand =>
      { demand with
        energyKwh := ⟨roundTo 3 demand.energyKwh, roundTo_nonneg 3 demand.energyKwh.2⟩ }

end Demands

/-- Charging takes the time the bay's power needs for the energy. -/
def ChargingSession.recharged (perSlotPowerKw : ℚ) (session : ChargingSession) : ChargingSession :=
  if 0 < perSlotPowerKw then
    { session with durationS := session.energyKwh / perSlotPowerKw.toNNRat * 3600 }
  else session

/-- Assign sessions to bays in list order. -/
def chargeInOrder (slots : ℕ) (perSlotPowerKw : ℚ) (slotFree : ℕ → WithBot ℚ) :
    List ChargingSession → List ChargedSession
  | [] => []
  | session :: rest =>
    let session := session.recharged perSlotPowerKw
    let slot := Work.firstFree slots slotFree
    let chargeStartS := max session.arrivalS ((slotFree slot).unbotD session.arrivalS)
    let chargeEndS := chargeStartS + session.durationS
    ⟨session, slot, chargeStartS, chargeEndS⟩ ::
      chargeInOrder slots perSlotPowerKw (Function.update slotFree slot chargeEndS) rest

/-- The most sessions that wait for a bay at a time. -/
def peakQueueDepth (sessions : List ChargedSession) : ℤ :=
  maxConcurrent <| (sessions.filter fun s => s.session.arrivalS < s.chargeStartS).map fun s =>
    (s.session.arrivalS, s.chargeStartS)

structure HubReport where
  slots : ℕ
  chargingPowerKw : ℚ
  perSlotPowerKw : ℚ
  nSessions : ℕ
  energyKwh : ℚ
  totalChargeTimeS : ℚ
  totalQueueWaitS : ℚ
  maxQueueWaitS : ℚ
  nQueuedSessions : ℕ
  peakQueueDepth : ℤ
  maxTurnaroundS : ℚ
  nTurnaroundAtRisk : ℕ
  utilizationPct : ℚ
deriving DecidableEq

/-- The sessions of one hub in their bays, and the report on them. -/
structure HubSchedule where
  sessions : List ChargedSession
  report : HubReport
deriving DecidableEq

section Hub

variable (settings : ChargingSettings) (hub : ChargingHub)

/-- A hub has at least one bay. -/
def ChargingHub.slots : ℕ :=
  (max 1 ((hub.chargingSlots.filter (· ≠ 0)).getD settings.chargingDefaultSlots)).toNat

def ChargingHub.aggregatePower : ℚ :=
  (hub.chargingPowerKw.filter (· ≠ 0)).getD settings.chargingDefaultPowerKw

def ChargingHub.perSlotPower : ℚ :=
  if 0 < hub.aggregatePower settings then hub.aggregatePower settings / hub.slots settings else 0

/-- Share of the bays' time that is charged in, as a percentage. -/
def utilization (slots : ℕ) (sessions : List ChargedSession) : ℚ :=
  let busyS : ℚ := (sessions.map fun s => (s.session.durationS : ℚ)).sum
  let windowS := (sessions.map (·.chargeEndS)).max?.getD 0 -
    (sessions.map (·.chargeStartS)).min?.getD 0
  if 0 < windowS then busyS / (slots * windowS) * 100 else 0

/-- Assign one hub's sessions to its bays in arrival order. -/
def scheduleHub (sessions : List ChargingSession) : HubSchedule :=
  let slots := hub.slots settings
  let ordered := chargeInOrder slots (hub.perSlotPower settings) (fun _ => ⊥) <|
    sortBy (fun s : ChargingSession => toLex (s.arrivalS, s.assetId)) sessions
  { sessions := ordered
    report :=
      { slots := slots
        chargingPowerKw := roundTo 2 (hub.aggregatePower settings)
        perSlotPowerKw := roundTo 2 (hub.perSlotPower settings)
        nSessions := ordered.length
        energyKwh := roundTo 2 (ordered.map fun s => (s.session.energyKwh : ℚ)).sum
        totalChargeTimeS := roundTo 1 (ordered.map fun s => (s.session.durationS : ℚ)).sum
        totalQueueWaitS := roundTo 1 (ordered.map (·.waitS)).sum
        maxQueueWaitS := roundTo 1 ((ordered.map (·.waitS)).max?.getD 0)
        nQueuedSessions := ordered.countP fun s => 0 < s.waitS
        peakQueueDepth := peakQueueDepth ordered
        maxTurnaroundS := roundTo 1 ((ordered.map (·.turnaroundS)).max?.getD 0)
        nTurnaroundAtRisk :=
          ordered.countP fun s => settings.chargingTurnaroundRiskS < s.turnaroundS
        utilizationPct := roundTo 2 (utilization slots ordered) } }

/-- The schedules of all hubs that have sessions. -/
def buildChargingSchedule (hubs : List ChargingHub) (sessions : List ChargingSession) :
    List HubSchedule :=
  let hubById := Dict.collect ChargingHub.locationId id hubs
  (Dict.groupBy ChargingSession.hubId id sessions).entries.filterMap fun entry =>
    (hubById.get? entry.1).map fun hub => scheduleHub settings hub entry.2

end Hub

/-- Sessions as the jobs of the bays. -/
def chargingWork : Work ChargingSession ℚ where
  release := ChargingSession.arrivalS
  duration s := s.durationS

/-- A booking of a bay as a charged session. -/
def chargedOf (b : Booking ChargingSession ℚ) : ChargedSession :=
  ⟨b.job, b.machine, b.start, chargingWork.finish b⟩

/-- The loop books the bays as identical machines. -/
theorem chargeInOrder_eq (slots : ℕ) (perSlotPowerKw : ℚ) (slotFree : ℕ → WithBot ℚ)
    (sessions : List ChargingSession) :
    chargeInOrder slots perSlotPowerKw slotFree sessions =
      (chargingWork.book slots slotFree
        (sessions.map (ChargingSession.recharged perSlotPowerKw))).map chargedOf := by
  induction sessions generalizing slotFree with
  | nil => rfl
  | cons session rest ih => exact congrArg (_ :: ·) (ih _)

theorem recharged_arrivalS (perSlotPowerKw : ℚ) (session : ChargingSession) :
    (session.recharged perSlotPowerKw).arrivalS = session.arrivalS := by
  rw [ChargingSession.recharged]
  split_ifs <;> rfl

section Schedule

variable (settings : ChargingSettings) (hub : ChargingHub) (sessions : List ChargingSession)

theorem slots_pos : 0 < hub.slots settings := by
  rw [ChargingHub.slots]
  omega

/-- The recharge jobs of a hub in arrival order. -/
def hubJobs : List ChargingSession :=
  (sortBy (fun s : ChargingSession => toLex (s.arrivalS, s.assetId)) sessions).map
    (ChargingSession.recharged (hub.perSlotPower settings))

/-- The bookings of a hub's bays. -/
def hubBookings : List (Booking ChargingSession ℚ) :=
  chargingWork.book (hub.slots settings) (fun _ => ⊥) (hubJobs settings hub sessions)

theorem sessions_scheduleHub :
    (scheduleHub settings hub sessions).sessions =
      (hubBookings settings hub sessions).map chargedOf :=
  chargeInOrder_eq _ _ _ _

theorem charging_lasts (s : ChargingSession) : 0 ≤ chargingWork.duration s := s.durationS.2

theorem hubJobs_ordered :
    (hubJobs settings hub sessions).Pairwise fun first second =>
      chargingWork.release first ≤ chargingWork.release second := by
  rw [hubJobs, List.pairwise_map]
  refine (pairwise_sortBy _ sessions).imp fun {first second} ordered => ?_
  change (ChargingSession.recharged _ first).arrivalS ≤ (ChargingSession.recharged _ second).arrivalS
  rw [recharged_arrivalS, recharged_arrivalS]
  rcases Prod.Lex.le_iff.mp ordered with earlier | ⟨same, -⟩
  · exact earlier.le
  · exact same.le

/-- Every session is charged, in arrival order. -/
theorem map_session_scheduleHub :
    (scheduleHub settings hub sessions).sessions.map (·.session) =
      hubJobs settings hub sessions := by
  rw [sessions_scheduleHub, List.map_map]
  exact Work.map_job_book

theorem perm_scheduleHub :
    ((scheduleHub settings hub sessions).sessions.map (·.session)).Perm
      (sessions.map (ChargingSession.recharged (hub.perSlotPower settings))) := by
  rw [map_session_scheduleHub]
  exact (perm_sortBy _ sessions).map _

theorem charging_at_most_slots (t : ℚ) :
    ((scheduleHub settings hub sessions).sessions.filter (·.ChargesAt t)).length ≤
      hub.slots settings := by
  rw [sessions_scheduleHub, List.filter_map, List.length_map]
  exact Work.running_le charging_lasts (slots_pos settings hub) t

theorem bays_exclusive :
    (scheduleHub settings hub sessions).sessions.Pairwise fun first second =>
      first.slot = second.slot → first.chargeEndS ≤ second.chargeStartS := by
  rw [sessions_scheduleHub, List.pairwise_map]
  exact Work.machines_exclusive charging_lasts

theorem starts_after_arrival :
    ∀ s ∈ (scheduleHub settings hub sessions).sessions,
      s.slot < hub.slots settings ∧ s.session.arrivalS ≤ s.chargeStartS := by
  intro s member
  rw [sessions_scheduleHub] at member
  obtain ⟨b, booked, rfl⟩ := List.mem_map.mp member
  exact ⟨Work.machine_lt (slots_pos settings hub) b booked, Work.release_le_start b booked⟩

theorem starts_in_arrival_order :
    (scheduleHub settings hub sessions).sessions.Pairwise fun first second =>
      first.session.arrivalS ≤ second.session.arrivalS ∧
        first.chargeStartS ≤ second.chargeStartS := by
  have arrivals := hubJobs_ordered settings hub sessions
  rw [← map_session_scheduleHub, List.pairwise_map] at arrivals
  refine arrivals.and ?_
  rw [sessions_scheduleHub, List.pairwise_map]
  exact Work.starts_ordered charging_lasts (slots_pos settings hub)
    (hubJobs_ordered settings hub sessions)

/-- A session waits only while every bay charges. -/
theorem no_free_bay_while_waiting :
    ∀ s ∈ (scheduleHub settings hub sessions).sessions, ∀ t, s.session.arrivalS ≤ t →
      t < s.chargeStartS → ∀ bay < hub.slots settings,
        ∃ other ∈ (scheduleHub settings hub sessions).sessions,
          other.slot = bay ∧ other.ChargesAt t := by
  intro s member t arrived waiting bay exists_bay
  rw [sessions_scheduleHub] at member ⊢
  obtain ⟨b, booked, rfl⟩ := List.mem_map.mp member
  obtain ⟨other, alongside, on, running⟩ := Work.waits_only_while_busy_of_unused
    (slots_pos settings hub) (hubJobs_ordered settings hub sessions) b booked t arrived waiting bay
    exists_bay
  exact ⟨chargedOf other, List.mem_map_of_mem alongside, on, running⟩

theorem utilization_le :
    utilization (hub.slots settings) (scheduleHub settings hub sessions).sessions ≤ 100 := by
  rw [utilization]
  set charged := (scheduleHub settings hub sessions).sessions with listed
  split_ifs with window
  · have within : ∀ b ∈ hubBookings settings hub sessions,
        (charged.map (·.chargeStartS)).min?.getD 0 ≤ b.start ∧
          chargingWork.finish b ≤ (charged.map (·.chargeEndS)).max?.getD 0 := by
      intro b booked
      have inside : chargedOf b ∈ charged := by
        rw [listed, sessions_scheduleHub]
        exact List.mem_map_of_mem booked
      exact ⟨min?_getD_le 0 (List.mem_map_of_mem inside), le_max?_getD 0 (List.mem_map_of_mem inside)⟩
    have load := Work.load_le charging_lasts (slots_pos settings hub) (sub_pos.mp window).le within
    have busy : (charged.map fun s => (s.session.durationS : ℚ)) =
        (hubBookings settings hub sessions).map fun b => chargingWork.duration b.job := by
      rw [listed, sessions_scheduleHub, List.map_map]
      rfl
    have bays : (0 : ℚ) < hub.slots settings := Nat.cast_pos.mpr (slots_pos settings hub)
    rw [nsmul_eq_mul, ← hubBookings, ← busy] at load
    have share := (div_le_one (mul_pos bays window)).mpr load
    linarith
  · norm_num

/-- The schedule of a hub charges every session once, in bays that serve one session at a time. Its
sessions start in arrival order, none before it arrives, and none waits while a bay is free. -/
theorem charging_schedule_valid :
    let schedule := scheduleHub settings hub sessions
    let slots := schedule.report.slots
    (schedule.sessions.map (·.session)).Perm
      (sessions.map (ChargingSession.recharged (hub.perSlotPower settings))) ∧
    (∀ t, (schedule.sessions.filter (·.ChargesAt t)).length ≤ slots) ∧
    (schedule.sessions.Pairwise fun first second =>
      first.slot = second.slot → first.chargeEndS ≤ second.chargeStartS) ∧
    (∀ s ∈ schedule.sessions, s.slot < slots ∧ s.session.arrivalS ≤ s.chargeStartS) ∧
    (schedule.sessions.Pairwise fun first second =>
      first.session.arrivalS ≤ second.session.arrivalS ∧
        first.chargeStartS ≤ second.chargeStartS) ∧
    (∀ s ∈ schedule.sessions, ∀ t, s.session.arrivalS ≤ t → t < s.chargeStartS →
      ∀ bay < slots, ∃ other ∈ schedule.sessions, other.slot = bay ∧ other.ChargesAt t) ∧
    schedule.report.utilizationPct ≤ 100 := by
  refine ⟨perm_scheduleHub settings hub sessions, charging_at_most_slots settings hub sessions,
    bays_exclusive settings hub sessions, starts_after_arrival settings hub sessions,
    starts_in_arrival_order settings hub sessions, no_free_bay_while_waiting settings hub sessions,
    ?_⟩
  calc (scheduleHub settings hub sessions).report.utilizationPct
      = roundTo 2 (utilization (hub.slots settings)
          (scheduleHub settings hub sessions).sessions) := rfl
    _ ≤ roundTo 2 100 := roundTo_mono 2 (utilization_le settings hub sessions)
    _ = 100 := by decide +kernel

end Schedule

section Hubs

variable (settings : ChargingSettings) (hubs : List ChargingHub)

/-- A hub charges the assets of its sessions. -/
theorem assets_scheduleHub (hub : ChargingHub) (sessions : List ChargingSession) :
    ((scheduleHub settings hub sessions).sessions.map (·.session.assetId)).Perm
      (sessions.map (·.assetId)) := by
  have asset : ∀ session : ChargingSession,
      (session.recharged (hub.perSlotPower settings)).assetId = session.assetId := by
    intro session
    rw [ChargingSession.recharged]
    split_ifs <;> rfl
  have perm := (perm_scheduleHub settings hub sessions).map ChargingSession.assetId
  simpa only [List.map_map, Function.comp_def, asset] using perm

/-- The hubs together charge the assets of all sessions at known hubs, each once. -/
theorem assets_buildChargingSchedule {sessions : List ChargingSession}
    (known : ∀ session ∈ sessions,
      session.hubId ∈ (Dict.collect ChargingHub.locationId id hubs).keys) :
    ((buildChargingSchedule settings hubs sessions).flatMap fun schedule =>
      schedule.sessions.map (·.session.assetId)).Perm (sessions.map (·.assetId)) := by
  have grouped := (Dict.perm_flatten_groupBy ChargingSession.hubId id sessions).map
    ChargingSession.assetId
  rw [List.map_id] at grouped
  refine List.Perm.trans ?_ grouped
  have listed : ∀ entry ∈ (Dict.groupBy ChargingSession.hubId id sessions).entries,
      ∃ hub, (Dict.collect ChargingHub.locationId id hubs).get? entry.1 = some hub := by
    intro entry member
    obtain ⟨session, given, same⟩ := (Dict.mem_keys_groupBy _ _ _ _).mp
      (List.mem_map_of_mem member : entry.1 ∈ (Dict.groupBy _ id sessions).keys)
    exact Option.isSome_iff_exists.mp ((Dict.mem_keys_iff _ _).mp (same ▸ known session given))
  rw [buildChargingSchedule, Dict.values]
  generalize (Dict.groupBy ChargingSession.hubId id sessions).entries = entries at listed ⊢
  induction entries with
  | nil => exact .refl _
  | cons entry rest ih =>
    obtain ⟨⟨hub, found⟩, others⟩ := List.forall_mem_cons.mp listed
    simp only [List.filterMap_cons, found, Option.map_some, List.flatMap_cons, List.map_cons,
      List.flatten_cons, List.map_append]
    exact (assets_scheduleHub settings hub entry.2).append (ih others)

/-- Every asset that needs a recharge at a known hub gets one, and no other asset does. -/
theorem every_demand_is_charged (geometry : Geometry) (assignments : List Assignment)
    (assetById : Dict String Asset) :
    let sessions := chargingSessions geometry assignments settings assetById
      (Dict.collect ChargingHub.locationId id hubs)
    ((buildChargingSchedule settings hubs sessions).flatMap fun schedule =>
      schedule.sessions.map (·.session.assetId)).Perm (sessions.map (·.assetId)) := by
  apply assets_buildChargingSchedule
  intro session member
  obtain ⟨demand, kept, rfl⟩ := List.mem_map.mp member
  exact (of_decide_eq_true (List.mem_filter.mp kept).2).1

end Hubs

section Peaks

/-- The most sessions that charge at a time, over all hubs. -/
def maxConcurrentCharging (sessions : List ChargedSession) : ℤ :=
  maxConcurrent <| sessions.map fun s => (s.chargeStartS, s.chargeEndS)

/-- The session is at its hub and waits for a bay; the moment it starts does not count. -/
def ChargedSession.WaitsAt (charged : ChargedSession) (t : ℚ) : Prop :=
  charged.session.arrivalS ≤ t ∧ t < charged.chargeStartS

instance (charged : ChargedSession) (t : ℚ) : Decidable (charged.WaitsAt t) :=
  inferInstanceAs (Decidable (_ ∧ _))

/-- The planning sweep is the general one. -/
theorem maxConcurrent_eq_peak (windows : List (ℚ × ℚ)) :
    maxConcurrent windows = Sweep.peak windows := rfl

theorem isGreatest_maxConcurrent {windows : List (ℚ × ℚ)}
    (proper : ∀ window ∈ windows, window.1 ≤ window.2) :
    IsGreatest (Set.range (Sweep.depth windows)) (maxConcurrent windows) := by
  rw [maxConcurrent_eq_peak]
  exact Sweep.isGreatest_peak proper

/-- Only sessions that wait at some moment are swept, and these are all that ever count. -/
theorem depth_waiting (sessions : List ChargedSession) (t : ℚ) :
    Sweep.depth ((sessions.filter fun s => s.session.arrivalS < s.chargeStartS).map fun s =>
      (s.session.arrivalS, s.chargeStartS)) t = sessions.countP fun s => s.WaitsAt t := by
  rw [Sweep.depth, List.countP_map, List.countP_filter]
  refine congrArg _ (List.countP_congr fun s _ => ?_)
  simp only [Function.comp, Bool.and_eq_true, decide_eq_true_eq]
  constructor
  · exact fun waits => waits.1
  · exact fun waits => ⟨waits, waits.1.trans_lt waits.2⟩

theorem depth_charging (sessions : List ChargedSession) (t : ℚ) :
    Sweep.depth (sessions.map fun s => (s.chargeStartS, s.chargeEndS)) t =
      sessions.countP fun s => s.ChargesAt t := by
  rw [Sweep.depth, List.countP_map]
  rfl

/-- The reported peaks are attained and never exceeded: of the flights airborne at an instant, of
the sessions that charge and of those that wait. Intervals may be empty; a session whose charging
would start before it arrives waits at no instant. -/
theorem concurrency_peaks_isGreatest (flights : List (ℚ × ℚ)) (sessions : List ChargedSession)
    (flown : ∀ flight ∈ flights, flight.1 ≤ flight.2)
    (charged : ∀ s ∈ sessions, s.chargeStartS ≤ s.chargeEndS) :
    IsGreatest (Set.range fun t : ℚ =>
        ((flights.countP fun flight => flight.1 ≤ t ∧ t < flight.2 : ℕ) : ℤ))
      (maxConcurrent flights) ∧
    IsGreatest (Set.range fun t : ℚ => ((sessions.countP fun s => s.ChargesAt t : ℕ) : ℤ))
      (maxConcurrentCharging sessions) ∧
    IsGreatest (Set.range fun t : ℚ => ((sessions.countP fun s => s.WaitsAt t : ℕ) : ℤ))
      (peakQueueDepth sessions) := by
  refine ⟨isGreatest_maxConcurrent flown, ?_, ?_⟩
  · simp only [← depth_charging]
    refine isGreatest_maxConcurrent fun window member => ?_
    obtain ⟨s, listed, rfl⟩ := List.mem_map.mp member
    exact charged s listed
  · simp only [← depth_waiting]
    refine isGreatest_maxConcurrent fun window member => ?_
    obtain ⟨s, listed, rfl⟩ := List.mem_map.mp member
    exact (of_decide_eq_true (List.mem_filter.mp listed).2).le

/-- Two flights that hand over and one that is never airborne; a session that waits for the bay of
another. -/
theorem concurrency_peaks_handover :
    let flights : List (ℚ × ℚ) := [(0, 10), (10, 20), (10, 10)]
    let sessions : List ChargedSession :=
      [⟨⟨"a", "hub", 1, 0, 10⟩, 0, 0, 10⟩, ⟨⟨"b", "hub", 1, 5, 10⟩, 0, 10, 20⟩]
    IsGreatest (Set.range fun t : ℚ =>
        ((flights.countP fun flight => flight.1 ≤ t ∧ t < flight.2 : ℕ) : ℤ))
      (maxConcurrent flights) ∧
    IsGreatest (Set.range fun t : ℚ => ((sessions.countP fun s => s.ChargesAt t : ℕ) : ℤ))
      (maxConcurrentCharging sessions) ∧
    IsGreatest (Set.range fun t : ℚ => ((sessions.countP fun s => s.WaitsAt t : ℕ) : ℤ))
      (peakQueueDepth sessions) :=
  concurrency_peaks_isGreatest _ _ (by decide +kernel) (by decide +kernel)

end Peaks

end FlOp.Planning
