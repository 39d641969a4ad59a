import FlOp.Mapping.RowProjection
import FlOp.Snapshot.Bundles

/-! # Power compatibility of the solver

The solver pairs the projected rows by their power margin, the headroom in percent of the rated
power. A power that a row does not have is its default of zero.
-/

namespace FlOp.Solver

open FlOp.Mapping FlOp.Snapshot FlOp.Core Library

variable {D : Type}

/-- One entry of the power margin. An array division by zero is an infinity or `nan`, and a
percentage of these is the same. -/
def powerMargin (rated required : ℚ) : PyFloat :=
  let rated := single.round rated
  let difference := single.round (rated - single.round required)
  if rated ≠ 0 then .number (single.round (single.round (difference / rated) * 100))
  else if difference = 0 then .nan
  else if 0 < difference then .of (((⊤ : WithTop ℚ)) : WithBot (WithTop ℚ))
  else .of ⊥

/-- One entry of the compatibility matrix. -/
def compatible (margin rated required : ℚ) : Bool :=
  (PyFloat.number (single.round (-margin))).le (powerMargin rated required)

/-- The power of a row as an array holds it. -/
def rowPower (readers : Readers D) (key : String) (row : Dict String (PyValue D)) : Option ℚ :=
  (row.get? key).bind readers.toFloat

/-- `build_compat_matrix`: the compatible pairs and their margins; a power that is no number
raises. -/
def buildCompatMatrix (readers : Readers D) (margin : ℚ)
    (primeMovers relatedEquipment : List (Dict String (PyValue D))) :
    Option (List (List Bool) × List (List PyFloat)) :=
  (primeMovers.mapM (rowPower readers "rated_power")).bind fun rated =>
    (relatedEquipment.mapM (rowPower readers "required_power")).map fun required =>
      (rated.map fun r => required.map fun q => compatible margin r q,
        rated.map fun r => required.map fun q => powerMargin r q)

/-- The working rows of the prime movers. -/
def primeMoverSection : Section D := assetSection "prime_movers" "mobile-prime-mover" primeMoverRow

/-- The working rows of the related equipment. -/
def relatedSection : Section D := assetSection "related_equipment" "implement" relatedRow

/-- The compatibility matrix of a snapshot, from its projected rows. -/
def projectedCompat (readers : Readers D) (margin : ℚ) (tables : List MappingTable)
    (snapshot : Mapping.Snapshot D) : Option (List (List Bool)) :=
  (primeMoverSection.rows readers tables snapshot).bind fun primeMovers =>
    (relatedSection.rows readers tables snapshot).bind fun relatedEquipment =>
      (buildCompatMatrix readers margin primeMovers relatedEquipment).map Prod.fst

section Comparing

variable {margin rated required : ℚ}

/-- The default rating powers exactly what requires less than nothing. -/
theorem compatible_zero : compatible margin 0 required ↔ required < 0 := by
  have drawn := single.round_neg_iff singleUnit_lt_one (x := required)
  have zero := single.round_eq_zero_iff singleUnit_lt_one (x := -single.round required)
  have left := single.round_pos_iff singleUnit_lt_one (x := -single.round required)
  have margins : powerMargin 0 required =
      if single.round (-single.round required) = 0 then .nan
      else if 0 < single.round (-single.round required) then
        .of (((⊤ : WithTop ℚ)) : WithBot (WithTop ℚ))
      else .of ⊥ := by
    simp [powerMargin]
  rw [compatible, margins, ← drawn]
  split_ifs with none more
  · exact iff_of_false (by simp) (not_lt.mpr (neg_eq_zero.mp (zero.mp none)).ge)
  · exact iff_of_true (by simp [PyFloat.number, PyFloat.le]) (neg_pos.mp (left.mp more))
  · exact iff_of_false (by simp [PyFloat.number, PyFloat.le]) fun below =>
      more (left.mpr (neg_pos.mpr below))

/-- A rated prime mover: the margin is a rounded percentage. -/
theorem compatible_iff_of_rated (margin : ℚ) (given : rated ≠ 0) (required : ℚ) :
    compatible margin rated required ↔ single.round (-margin) ≤ single.round (single.round
      (single.round (single.round rated - single.round required) / single.round rated) * 100) := by
  have ratedGiven : single.round rated ≠ 0 :=
    fun zero => given ((Rounding.round_eq_zero_iff singleUnit_lt_one).mp zero)
  rw [compatible, powerMargin, if_pos ratedGiven, PyFloat.number_le_number]

/-- The margin of a rated prime mover, cleared of its division. -/
theorem exists_cleared_margin {unit : ℚ} (rounding : Rounding unit) (small : unit < 1)
    (margin : ℚ) (given : rated ≠ 0) (required : ℚ) :
    ∃ f g h scale, IsFactor unit 4 f ∧ IsFactor unit 4 g ∧ IsFactor unit 4 h ∧ 0 < scale ∧
      rounding.round (rounding.round (rounding.round (rounding.round rated -
        rounding.round required) / rounding.round rated) * 100) - rounding.round (-margin) =
      scale * rated * (f * rated + g * (margin / 100 * rated) - h * required) := by
  have nonneg := rounding.unit_nonneg
  obtain ⟨f, ownF, ratedIs⟩ := rounding.exists_factor rated
  obtain ⟨g, ownG, requiredIs⟩ := rounding.exists_factor required
  obtain ⟨h, ownH, marginIs⟩ := rounding.exists_factor (-margin)
  obtain ⟨k, ownK, differenceIs⟩ := rounding.exists_factor (f * rated - g * required)
  obtain ⟨l, ownL, ratioIs⟩ :=
    rounding.exists_factor (k * (f * rated - g * required) / (f * rated))
  obtain ⟨n, ownN, percentIs⟩ :=
    rounding.exists_factor (l * (k * (f * rated - g * required) / (f * rated)) * 100)
  have three := (ownN.mul nonneg ownL).mul nonneg ownK
  have positive : 0 < f := ownF.pos (by simpa [drift] using small)
  refine ⟨n * l * k * f, h * f, n * l * k * g, 100 / (f * rated ^ 2),
    (three.mul nonneg ownF).mono nonneg (by omega), (ownH.mul nonneg ownF).mono nonneg (by omega),
    (three.mul nonneg ownG).mono nonneg (by omega), by positivity, ?_⟩
  rw [ratedIs, requiredIs, marginIs, differenceIs, ratioIs, percentIs]
  field_simp
  ring

theorem mul_nonneg_iff_of_neg (negative : rated < 0) (x : ℚ) : 0 ≤ rated * x ↔ x ≤ 0 := by
  rw [← neg_mul_neg, mul_nonneg_iff_of_pos_left (neg_pos.mpr negative), neg_nonneg]

/-- Away from the limit a rated prime mover powers what its exact headroom says, and a negative
rating the opposite. -/
theorem compatible_iff_of_clear (given : rated ≠ 0) (clear : ClearOfLimit margin rated required) :
    compatible margin rated required ↔ 0 ≤ rated * headroom margin rated required := by
  obtain ⟨f, g, h, scale, ownF, ownG, ownH, positive, cleared⟩ :=
    exists_cleared_margin single singleUnit_lt_one margin given required
  have close := abs_compare_sub_le (a := rated) (b := margin / 100 * rated) (c := required)
    ownF ownG ownH
  rw [← headroom] at close
  rw [compatible_iff_of_rated margin given, ← sub_nonneg, cleared, mul_assoc,
    mul_nonneg_iff_of_pos_left positive]
  rcases given.lt_or_gt with negative | rating
  · rw [mul_nonneg_iff_of_neg negative, mul_nonneg_iff_of_neg negative, ← neg_nonneg,
      ← neg_nonneg (a := headroom margin rated required)]
    refine nonneg_iff_of_abs_sub_lt (le_trans ?_ close) (by rwa [abs_neg])
    rw [← abs_neg, neg_sub_neg, neg_sub]
  · rw [mul_nonneg_iff_of_pos_left rating, mul_nonneg_iff_of_pos_left rating]
    exact nonneg_iff_of_abs_sub_lt close clear

/-- The powers with which the snapshot and the solver agree about a pair. -/
def PowersAgree (margin : ℚ) : Option ℚ → Option ℚ → Prop
  | some rated, some required => 0 < rated ∨ rated = 0 ∧ required ≠ 0
  | some rated, none => rated = 0 ∨ margin < -100
  | none, some required => 0 ≤ required
  | none, none => True

theorem headroom_zero_required : headroom margin rated 0 = rated * (1 + margin / 100) := by
  rw [headroom]
  ring

/-- Both decide a pair alike exactly if its powers agree. -/
theorem powerFeasible_eq_compatible_iff {margin : ℚ} {rated required : Option ℚ}
    (clear : ∀ r, rated = some r → r ≠ 0 → ClearOfLimit margin r (required.getD 0)) :
    powerFeasible margin rated required =
      compatible margin (rated.getD 0) (required.getD 0) ↔ PowersAgree margin rated required := by
  rw [Bool.eq_iff_iff]
  cases rated with
  | none =>
    rw [Option.getD_none, compatible_zero]
    cases required with
    | none => simp [powerFeasible, PowersAgree]
    | some q => simp [powerFeasible, PowersAgree]
  | some r =>
    by_cases zero : r = 0
    · subst zero
      rw [Option.getD_some, compatible_zero]
      cases required with
      | none => simp [powerFeasible, PowersAgree]
      | some q =>
        rw [powerFeasible_zero, Option.getD_some]
        simp only [PowersAgree, lt_irrefl, false_or, true_and]
        rw [le_iff_lt_or_eq]
        constructor
        · rintro same rfl
          exact lt_irrefl 0 (same.mp (.inr rfl))
        · intro other
          exact or_iff_left other
    · have clear := clear r rfl zero
      rw [Option.getD_some, compatible_iff_of_clear zero clear]
      have away : headroom margin r (required.getD 0) ≠ 0 := by
        intro none
        rw [ClearOfLimit, none, abs_zero] at clear
        have nonneg : 0 ≤ drift singleUnit 4 * (|r| + |margin / 100 * r| + |required.getD 0|) :=
          mul_nonneg (drift_nonneg singleUnit_nonneg) (by positivity)
        linarith
      cases required with
      | none =>
        rw [Option.getD_none, headroom_zero_required] at away ⊢
        have share : 1 + margin / 100 ≠ 0 := right_ne_zero_of_mul away
        have square : 0 < r * r := mul_self_pos.mpr zero
        rw [← mul_assoc, mul_nonneg_iff_of_pos_left square]
        simp only [powerFeasible, PowersAgree, Bool.false_eq_true, false_iff, zero, false_or]
        constructor
        · intro negative
          linarith
        · intro low
          linarith
      | some q =>
        rw [Option.getD_some] at away clear ⊢
        rw [powerFeasible_iff_of_clear clear]
        rcases lt_or_gt_of_ne zero with negative | rating
        · rw [mul_nonneg_iff_of_neg negative]
          refine iff_of_false ?_ (by simp [PowersAgree, negative.le, zero])
          rcases away.lt_or_gt with below | above
          · exact fun same => below.not_ge (same.mpr below.le)
          · exact fun same => above.not_ge (same.mp above.le)
        · rw [mul_nonneg_iff_of_pos_left rating]
          exact iff_of_true Iff.rfl (.inl rating)

end Comparing

/-- The tables of a section bind the identity and a power, under one term. -/
structure BindsPower (own : Section D) (tables : List MappingTable) (path term : String) : Prop
    extends own.Coherent tables where
  identity : ∃ table ∈ own.tables tables, ∃ binding ∈ table.bindings,
    binding.binding = "asset.assetId"
  power : ∃ table ∈ own.tables tables, ∃ binding ∈ table.bindings,
    binding.binding = path ∧ binding.semanticTerm = term

/-- Every power that the asset has is a number. -/
def Readable (readers : Readers D) (asset : Emitted D) (term : String) : Prop :=
  ∀ value, (capabilityValue asset term).present = some value → (readers.toFloat value).isSome

theorem readable_of_powerValue {readers : Readers D} {asset : Emitted D} {term : String} {power : ℚ}
    (held : powerValue readers asset term = some power) : Readable readers asset term := by
  intro value present
  rw [powerValue, present, Option.bind_some] at held
  rw [held]
  rfl

section Rows

variable {readers : Readers D} {own : Section D} {tables : List MappingTable}
  {snapshot : Mapping.Snapshot D} {path term key : String} {asset : Emitted D}

theorem entityValue_assetId (entity : own.entity = "asset") {inventory : List InventoryPosition}
    {binding : MetaBinding} (path : binding.binding = "asset.assetId") :
    entityValue readers own.entity inventory asset binding = asset.get "asset_id" := by
  have tokens : dottedTokens "asset.assetId" = ["asset", "assetId"] := by decide +kernel
  have resolution : (assetResolutions.find? fun resolution => resolution.path = ["assetId"]) =
      some ⟨["assetId"], "asset_id", .plain⟩ := by
    decide +kernel
  rw [entityValue, if_pos entity, assetValue, path, tokens]
  rw [if_neg (by decide), List.tail_cons, Emitted.resolve, resolution]
  rfl

/-- Every identified asset has a working row. -/
theorem isSome_row (binds : BindsPower own tables path term) (entity : own.entity = "asset")
    (required : ∀ field ∈ own.rowClass.fields.entries, field.2 = none → field.1 = "asset_id")
    (identified : asset.get "asset_id" ≠ .null) :
    (own.row readers tables snapshot asset).isSome := by
  have known : own.entity ∈ recordEntities := by rw [entity]; decide
  have keyed : canonicalKey "asset.assetId" = some "asset_id" := by decide
  have held : (projectMany (entityValue readers own.entity (Snapshot.inventory snapshot) asset)
      (own.tables tables)).get? "asset_id" = (asset.get "asset_id").present := by
    have agree : ∀ table ∈ own.tables tables, ∀ binding ∈ table.bindings,
        canonicalKey binding.binding = some "asset_id" → entityValue readers own.entity
          (Snapshot.inventory snapshot) asset binding = asset.get "asset_id" := by
      intro table selected binding member bound
      have ownPath := binds.ownPaths table selected binding member (by rw [bound]; simp)
      exact entityValue_assetId entity (path_eq_of_key known bound keyed ownPath
        (by rw [entity]; decide +kernel))
    obtain ⟨table, selected, binding, member, same⟩ := binds.identity
    rw [get?_projectMany agree, if_pos ⟨table, selected, binding, member, same ▸ keyed⟩]
  have present : ∃ value, (asset.get "asset_id").present = some value := by
    cases given : asset.get "asset_id" with
    | null => exact absurd given identified
    | _ => exact ⟨_, rfl⟩
  rw [Section.row, RowClass.fromCanonicalDict, if_pos]
  · rfl
  · intro field member needed
    obtain ⟨value, same⟩ := present
    rw [required field member needed, Dict.mem_keys_iff, held, same]
    rfl

/-- The power that a row holds is that of its asset, or zero. -/
theorem rowPower_row (binds : BindsPower own tables path term) (entity : own.entity = "asset")
    (keyed : canonicalKey path = some key) (capability : "capabilities" ∈ dottedTokens path)
    (field : own.rowClass.fields.get? key = some (some (.number 0)))
    {row : Dict String (PyValue D)} (projected : own.row readers tables snapshot asset = some row) :
    rowPower readers key row =
      readers.toFloat ((capabilityValue asset term).present.getD (.float 0)) := by
  obtain ⟨table, selected, binding, member, same, named⟩ := binds.power
  have known : own.entity ∈ recordEntities := by rw [entity]; decide
  have value : entityValue readers own.entity (Snapshot.inventory snapshot) asset binding =
      capabilityValue asset term := by
    rw [entityValue, if_pos entity, assetValue, same, named]
    exact if_pos (.inl capability)
  rw [rowPower, get?_solverRow binds.toCoherent known selected projected member
    (same ▸ keyed) field, value]
  rfl

/-- The rows of a role are those of its assets. -/
theorem rows_assetSection {name role : String} {rowClass : RowClass}
    (tabled : (assetSection name role rowClass : Section D).tables tables ≠ []) :
    (assetSection name role rowClass).rows readers tables snapshot =
      ((snapshotAssets snapshot).filter fun asset => role ∈ asset.roles).mapM
        ((assetSection name role rowClass).row readers tables snapshot) := by
  have held : (snapshotAssets snapshot).filter (fun asset => role ∈ asset.roles) =
      (snapshot.filter fun record => record.1 = (assetSection name role rowClass : Section D).entity ∧
        (assetSection name role rowClass : Section D).holds record.2).map (·.2) := by
    rw [snapshotAssets, List.filter_map, List.filter_filter]
    congr 1
    apply List.filter_congr
    intro record _
    simp [assetSection, Bool.and_comm]
  rw [Section.rows, if_neg tabled, held, List.mapM_map]
  rfl

end Rows

/-- Reading the power of an asset's row. -/
theorem isSome_rowValue {readers : Readers D} {asset : Emitted D} {term : String} :
    (readers.toFloat ((capabilityValue asset term).present.getD (.float 0))).isSome ↔
      Readable readers asset term := by
  rw [Readable]
  cases (capabilityValue asset term).present with
  | none => exact iff_of_true rfl (by simp)
  | some value => simp

theorem rowValue_eq {readers : Readers D} {asset : Emitted D} {term : String}
    (readable : Readable readers asset term) :
    readers.toFloat ((capabilityValue asset term).present.getD (.float 0)) =
      some ((powerValue readers asset term).getD 0) := by
  rw [Readable] at readable
  rw [powerValue]
  cases present : (capabilityValue asset term).present with
  | none => rfl
  | some value =>
    obtain ⟨x, read⟩ := Option.isSome_iff_exists.mp (readable value present)
    simp [read]

/-- The powers of a list of rows. -/
theorem mapM_rowValue {readers : Readers D} {assets : List (Emitted D)} {term : String}
    (readable : ∀ asset ∈ assets, Readable readers asset term) :
    (assets.mapM fun asset =>
      readers.toFloat ((capabilityValue asset term).present.getD (.float 0))) =
      some (assets.map fun asset => (powerValue readers asset term).getD 0) := by
  rw [Fallible.mapM_congr (fun asset member => rowValue_eq (readable asset member))]
  exact List.mapM_pure

theorem mapM_rowValue_eq_none {readers : Readers D} {assets : List (Emitted D)} {term : String}
    (unreadable : ¬ ∀ asset ∈ assets, Readable readers asset term) :
    (assets.mapM fun asset =>
      readers.toFloat ((capabilityValue asset term).present.getD (.float 0))) = none := by
  rw [← Option.not_isSome_iff_eq_none, Fallible.isSome_mapM]
  intro all
  exact unreadable fun asset member => isSome_rowValue.mp (all asset member)

/-- Where every asset of a role has an id, the rows carry its powers. -/
theorem exists_rowPowers (readers : Readers D) {tables : List MappingTable}
    {snapshot : Mapping.Snapshot D} {name role path term : String} {rowClass : RowClass}
    (key : String)
    (binds : BindsPower (assetSection name role rowClass : Section D) tables path term)
    (required : ∀ field ∈ rowClass.fields.entries, field.2 = none → field.1 = "asset_id")
    (keyed : canonicalKey path = some key) (capability : "capabilities" ∈ dottedTokens path)
    (field : rowClass.fields.get? key = some (some (.number 0)))
    (identified : ∀ asset ∈ snapshotAssets snapshot, asset.get "asset_id" ≠ .null) :
    ∃ rows, (assetSection name role rowClass).rows readers tables snapshot = some rows ∧
      rows.mapM (rowPower readers key) =
        ((snapshotAssets snapshot).filter fun asset => role ∈ asset.roles).mapM fun asset =>
          readers.toFloat ((capabilityValue asset term).present.getD (.float 0)) := by
  have tabled : (assetSection name role rowClass : Section D).tables tables ≠ [] := by
    obtain ⟨table, selected, -⟩ := binds.identity
    exact List.ne_nil_of_mem selected
  rw [rows_assetSection tabled]
  apply Fallible.mapM_bind_mapM
  · intro asset member
    exact isSome_row binds rfl required (identified asset (List.mem_of_mem_filter member))
  · intro asset _ row projected
    exact rowPower_row binds rfl keyed capability field projected

/-- The pair matrix of the snapshot is the compatibility matrix of the solver exactly if every
power is a number and the powers of every pair agree. -/
theorem projectedCompat_eq_pairMatrix_iff {readers : Readers D} {margin : ℚ}
    {tables : List MappingTable} {snapshot : Mapping.Snapshot D}
    (rating : BindsPower (primeMoverSection : Section D) tables "asset.capabilities.ratedPower"
      ratedPowerTerm)
    (drawing : BindsPower (relatedSection : Section D) tables "asset.capabilities.requiredPower"
      requiredPowerTerm)
    (identified : ∀ asset ∈ snapshotAssets snapshot, asset.get "asset_id" ≠ .null)
    (clear : ∀ primeMover ∈ primeMovers (snapshotAssets snapshot),
      ∀ implement ∈ implements (snapshotAssets snapshot), ∀ rated,
        powerValue readers primeMover ratedPowerTerm = some rated → rated ≠ 0 →
          ClearOfLimit margin rated ((powerValue readers implement requiredPowerTerm).getD 0)) :
    projectedCompat readers margin tables snapshot = some (pairMatrix readers margin
        (primeMovers (snapshotAssets snapshot)) (implements (snapshotAssets snapshot))) ↔
      (∀ primeMover ∈ primeMovers (snapshotAssets snapshot),
        Readable readers primeMover ratedPowerTerm) ∧
      (∀ implement ∈ implements (snapshotAssets snapshot),
        Readable readers implement requiredPowerTerm) ∧
      ∀ primeMover ∈ primeMovers (snapshotAssets snapshot),
        ∀ implement ∈ implements (snapshotAssets snapshot),
          PowersAgree margin (powerValue readers primeMover ratedPowerTerm)
            (powerValue readers implement requiredPowerTerm) := by
  obtain ⟨ratedRows, ratedIs, ratedPowers⟩ := exists_rowPowers readers "rated_power" rating
    (by decide) (by decide) (by decide +kernel) (by decide) identified
  obtain ⟨drawnRows, drawnIs, drawnPowers⟩ := exists_rowPowers readers "required_power" drawing
    (by decide) (by decide) (by decide +kernel) (by decide) identified
  rw [← primeMovers] at ratedPowers
  rw [← implements] at drawnPowers
  rw [projectedCompat, primeMoverSection, ratedIs, Option.bind_some, relatedSection, drawnIs,
    Option.bind_some, buildCompatMatrix, ratedPowers, drawnPowers]
  generalize primeMovers (snapshotAssets snapshot) = movers at clear ⊢
  generalize implements (snapshotAssets snapshot) = related at clear ⊢
  by_cases ratedNumbers : ∀ primeMover ∈ movers, Readable readers primeMover ratedPowerTerm
  · by_cases drawnNumbers : ∀ implement ∈ related, Readable readers implement requiredPowerTerm
    · rw [mapM_rowValue ratedNumbers, mapM_rowValue drawnNumbers, and_iff_right ratedNumbers,
        and_iff_right drawnNumbers]
      simp only [Option.bind_some, Option.map_some, Option.some.injEq, List.map_map, pairMatrix,
        List.map_inj_left, Function.comp_apply]
      refine forall₂_congr fun primeMover isMover => forall₂_congr fun implement isRelated => ?_
      rw [eq_comm]
      exact powerFeasible_eq_compatible_iff (clear primeMover isMover implement isRelated)
    · rw [mapM_rowValue ratedNumbers, mapM_rowValue_eq_none drawnNumbers]
      exact iff_of_false nofun fun agree => drawnNumbers agree.2.1
  · rw [mapM_rowValue_eq_none ratedNumbers]
    exact iff_of_false nofun fun agree => ratedNumbers agree.1

/-- Implements with their required power. -/
def requiredTable : MappingTable where
  contractId := "implements"
  canonicalEntity := "asset"
  assetRole := some "implement"
  bindings := [
    { sourceField := "implement_id", binding := "asset.assetId" },
    { sourceField := "required_power_kw", binding := "asset.capabilities.requiredPower"
      semanticTerm := requiredPowerTerm }]

/-- An asset in a role, with its powers by their terms. -/
def poweredAsset (assetId role : String) (powers : List (String × ℚ)) : String × Emitted Unit :=
  ("asset", {
    record := [("asset_id", .text assetId)]
    capabilities := powers.map fun power => ⟨"power", power.1, .float power.2, some "kW"⟩
    roles := [role] })

/-- A tractor of 100 kW with a plough of 80 kW. -/
def ploughingFleet : Mapping.Snapshot Unit :=
  [poweredAsset "tractor" "mobile-prime-mover" [(ratedPowerTerm, 100)],
    poweredAsset "plough" "implement" [(requiredPowerTerm, 80)]]

/-- The same tractor with a trailer whose power is not known. -/
def trailerFleet : Mapping.Snapshot Unit :=
  [poweredAsset "tractor" "mobile-prime-mover" [(ratedPowerTerm, 100)],
    poweredAsset "trailer" "implement" []]

theorem bindsPower_rated : BindsPower (primeMoverSection : Section Unit)
    [vehiclesTable, requiredTable] "asset.capabilities.ratedPower" ratedPowerTerm where
  ownPaths := by decide +kernel
  sharedTerms := by decide +kernel
  identity := by decide +kernel
  power := by decide +kernel

theorem bindsPower_required : BindsPower (relatedSection : Section Unit)
    [vehiclesTable, requiredTable] "asset.capabilities.requiredPower" requiredPowerTerm where
  ownPaths := by decide +kernel
  sharedTerms := by decide +kernel
  identity := by decide +kernel
  power := by decide +kernel

theorem projectedCompat_ploughing :
    projectedCompat typedReaders 10 [vehiclesTable, requiredTable] ploughingFleet =
      some (pairMatrix typedReaders 10 (primeMovers (snapshotAssets ploughingFleet))
        (implements (snapshotAssets ploughingFleet))) := by
  have movers : primeMovers (snapshotAssets ploughingFleet) =
      [(poweredAsset "tractor" "mobile-prime-mover" [(ratedPowerTerm, 100)]).2] := by
    simp [ploughingFleet, snapshotAssets, poweredAsset, primeMovers]
  have related : implements (snapshotAssets ploughingFleet) =
      [(poweredAsset "plough" "implement" [(requiredPowerTerm, 80)]).2] := by
    simp [ploughingFleet, snapshotAssets, poweredAsset, implements]
  have rated : powerValue typedReaders
      (poweredAsset "tractor" "mobile-prime-mover" [(ratedPowerTerm, 100)]).2 ratedPowerTerm =
        some 100 := by
    decide +kernel
  have required : powerValue typedReaders
      (poweredAsset "plough" "implement" [(requiredPowerTerm, 80)]).2 requiredPowerTerm =
        some 80 := by
    decide +kernel
  refine (projectedCompat_eq_pairMatrix_iff bindsPower_rated bindsPower_required ?_ ?_).mpr
    ⟨?_, ?_, ?_⟩
  · simp [ploughingFleet, snapshotAssets, poweredAsset, Emitted.get, lookupEntry,
      PyValue.ofOption]
  · rw [movers, related]
    simp only [List.mem_singleton, forall_eq, rated, required, Option.some.injEq, forall_eq']
    intro _
    norm_num [ClearOfLimit, headroom, drift, singleUnit, abs_of_pos]
  · rw [movers]
    simp only [List.mem_singleton, forall_eq]
    exact readable_of_powerValue rated
  · rw [related]
    simp only [List.mem_singleton, forall_eq]
    exact readable_of_powerValue required
  · rw [movers, related]
    simp only [List.mem_singleton, forall_eq, rated, required]
    exact .inl (by norm_num)

/-- A trailer without a power is compatible for the solver and infeasible in the snapshot. -/
theorem trailer_compatible_not_feasible :
    projectedCompat typedReaders 10 [vehiclesTable, requiredTable] trailerFleet = some [[true]] ∧
      pairMatrix typedReaders 10 (primeMovers (snapshotAssets trailerFleet))
        (implements (snapshotAssets trailerFleet)) = [[false]] := by
  decide +kernel

end FlOp.Solver
