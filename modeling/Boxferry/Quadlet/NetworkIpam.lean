import Boxferry.Library.Decimal
import Boxferry.Library.PositionalColumns
import Boxferry.Library.Results
import Boxferry.Model.Text
import Boxferry.Quadlet.Export.Dependencies
import Boxferry.Quadlet.Import.Core

/-! # Network address management

The rows of a network's address management are written as three lists of keys. The native generator reads
them by position, and the reader takes back one row. -/
namespace Boxferry.Quadlet
open Model
set_option autoImplicit false

/-! ## Columns -/

/-- The network keys of address management. -/
inductive NetworkKey where
  | subnet
  | gateway
  | ipRange
deriving DecidableEq

namespace NetworkKey

def entryKey : NetworkKey → Export.EntryKey
  | .subnet => .other "Network" "Subnet"
  | .gateway => .other "Network" "Gateway"
  | .ipRange => .other "Network" "IPRange"

def capability : NetworkKey → String
  | .subnet => "quadlet.network.subnet"
  | .gateway => "quadlet.network.gateway"
  | .ipRange => "quadlet.network.ip-range"

def field : NetworkKey → String
  | .subnet => "subnet"
  | .gateway => "gateway"
  | .ipRange => "ip_range"

end NetworkKey

/-- `is_safe_network_scalar`, which the exporter and the importer share. -/
def isSafeNetworkScalar (value : String) (allowEmpty : Bool) : Bool :=
  (allowEmpty || !value.isEmpty) && trim value = value &&
    !value.toList.any fun ch => ch ∈ ['\x00', '\n', '\r', '%', '\x27', '"', '\\'] || isAsciiWhitespace ch

/-! ## Writing -/

namespace Export
variable (m : Mapping)

def networkIpamOrigins (collectionOrigins : List Provenance) (row : Sourced NetworkIpamConfig) : List Provenance :=
  let origins := extendOrigins collectionOrigins row.origins
  let origins := extendOrigins origins row.value.subnet.origins
  let origins := extendOrigins origins (row.value.gateway.elim [] Sourced.origins)
  extendOrigins origins (row.value.ipRange.elim [] Sourced.origins)

def ipamSubject (networkSubject : String) (index : Nat) (key : NetworkKey) : Subject :=
  .other (networkSubject ++ (".ipam_configs[" ++ (toString index ++ ("]." ++ key.field))))

def Mapping.emitNetworkIpamValue (key : NetworkKey) (value : Sourced ProtectedString) (subject : Subject)
    (rowOrigins : List Provenance) (builder : UnitBuilder) : Mapped UnitBuilder :=
  let origins := if value.origins.isEmpty then rowOrigins else value.origins
  if isSafeNetworkScalar value.value.expose false then
    m.emit key.capability key.entryKey value.value.expose subject origins builder
  else do
    unsupported subject "IPAM values must be unquoted systemd-safe scalars" origins
    pure builder

/-- The columns of a row that have a value, in the order they are written. -/
def ipamColumns (row : NetworkIpamConfig) : List (NetworkKey × Sourced ProtectedString) :=
  (.subnet, row.subnet) :: (row.gateway.toList.map (NetworkKey.gateway, ·) ++
    row.ipRange.toList.map (NetworkKey.ipRange, ·))

def Mapping.mapIpamRow (networkSubject : String) (collectionOrigins : List Provenance) (builder : UnitBuilder)
    (row : Sourced NetworkIpamConfig × Nat) : Mapped UnitBuilder :=
  (ipamColumns row.1.value).foldlM (fun builder column => m.emitNetworkIpamValue column.1 column.2
    (ipamSubject networkSubject row.2 column.1) (networkIpamOrigins collectionOrigins row.1) builder) builder

def Mapping.mapNetworkIpam (networkSubject : String) (network : Network) (builder : UnitBuilder) :
    Mapped UnitBuilder :=
  match network.ipamConfigs with
  | none => pure builder
  | some rows => do
    Reports.onlyIf rows.isEmpty (unsupported (.other (networkSubject ++ ".ipam_configs"))
      "an explicit empty IPAM collection has no safe Quadlet reset encoding" network.ipamConfigsOrigins)
    rows.zipIdx.foldlM (m.mapIpamRow networkSubject network.ipamConfigsOrigins) builder

end Export

/-! ## Reading -/

namespace Import

structure IpamEntry where
  key : NetworkKey
  value : String
  origin : Provenance

/-- `NetworkIpamConfig::new`. -/
def newIpamConfig (subnet : Sourced ProtectedString) : Except ModelError NetworkIpamConfig := do
  validateText "network IPAM subnet" subnet.value.expose
  .ok { subnet }

/-- `NetworkIpamConfig::set_gateway` and `set_ip_range`. -/
def setIpamColumn (row : NetworkIpamConfig) (entry : IpamEntry) : Except ModelError NetworkIpamConfig :=
  match entry.key with
  | .gateway => do
    validateText "network IPAM gateway" entry.value
    .ok { row with gateway := some ⟨.sensitive entry.value, [entry.origin]⟩ }
  | .ipRange => do
    validateText "network IPAM IP range" entry.value
    .ok { row with ipRange := some ⟨.sensitive entry.value, [entry.origin]⟩ }
  | .subnet => .ok row

/-- The row after the entries that follow its subnet, or the first failure with its origin. -/
def setIpamColumns (row : NetworkIpamConfig) (entries : List IpamEntry) :
    Except (ModelError × Provenance) NetworkIpamConfig :=
  entries.foldlM (fun row entry => (setIpamColumn row entry).mapError fun error => (error, entry.origin)) row

def countKey (entries : List IpamEntry) (key : NetworkKey) : Nat := entries.countP fun entry => entry.key = key

def mapNetworkIpam (fileName subject : String) (entries : List IpamEntry) (documentOrigin : Provenance)
    (network : Network) : Imported Network :=
  let subject := subject ++ ".ipam_configs"
  let refuse (reason : String) : Imported Network := do
    Reports.report (.unsupported subject fileName "IPAM" (some reason) [documentOrigin])
    pure network
  let invalid (reason : String) (origin : Provenance) : Imported Network := do
    Reports.report (.invalid subject fileName reason (some origin))
    pure network
  if entries.isEmpty then pure network
  else if entries.any (·.value.isEmpty) then do
    Reports.report (.unsupported subject fileName "IPAM"
      (some "an empty IPAM column assignment resets native state and cannot be regenerated exactly")
      [documentOrigin])
    if entries.all (·.value.isEmpty) then
      pure { network with ipamConfigs := some [], ipamConfigsOrigins := entries.map IpamEntry.origin }
    else pure network
  else if entries.any (fun entry => !isSafeNetworkScalar entry.value false) then
    refuse "IPAM columns require unquoted systemd-safe scalar values"
  else if countKey entries .subnet = 0 && (0 < countKey entries .gateway || 0 < countKey entries .ipRange) then
    invalid "Gateway or IPRange requires a Subnet" documentOrigin
  else if countKey entries .subnet ≠ 1 || 1 < countKey entries .gateway || 1 < countKey entries .ipRange then
    refuse "independent repeated IPAM columns cannot be associated safely without positional zipping"
  else
    match entries.dropWhile fun entry => entry.key ≠ .subnet with
    | [] => invalid "IPAM association unexpectedly lacks its required Subnet" documentOrigin
    | subnet :: rest =>
      if (entries.takeWhile fun entry => entry.key ≠ .subnet).any
          fun entry => entry.key = .gateway || entry.key = .ipRange then
        refuse "Gateway and IPRange must physically follow their Subnet to establish one safe row"
      else
        match newIpamConfig ⟨.sensitive subnet.value, [subnet.origin]⟩ with
        | .error _ => invalid "invalid IPAM subnet" subnet.origin
        | .ok row =>
          match setIpamColumns row rest with
          | .error (error, origin) => invalid error.display origin
          | .ok row => do
            Reports.report (.exact (subject ++ "[0]") [])
            pure { network with ipamConfigs := some (network.ipamConfigs.getD [] ++ [⟨row, [subnet.origin]⟩]) }

end Import

/-! ## Written columns -/

section Written
variable {m : Export.Mapping} {networkSubject : String}

/-- A column of a row that is written. -/
abbrev IpamItem : Type := (Sourced NetworkIpamConfig × Nat) × (NetworkKey × Sourced ProtectedString)

def ipamItems (rows : List (Sourced NetworkIpamConfig)) : List IpamItem :=
  rows.zipIdx.flatMap fun row => (Export.ipamColumns row.1.value).map fun column => (row, column)

def IpamItem.subject (networkSubject : String) (item : IpamItem) : Export.Subject :=
  Export.ipamSubject networkSubject item.1.2 item.2.1

def IpamItem.entry (item : IpamItem) : Export.UnitEntry := ⟨item.2.1.entryKey, item.2.2.value.expose⟩

/-- A decision that reports the subject exact. -/
def ReportsExact (event : Export.Event) (subject : Export.Subject) : Prop := ∃ origins, event = .exact subject origins

instance (event : Export.Event) (subject : Export.Subject) : Decidable (ReportsExact event subject) :=
  match event with
  | .exact decided origins => decidable_of_iff (decided = subject)
      ⟨fun h => ⟨origins, by rw [h]⟩, fun ⟨_, h⟩ => (Export.Event.exact.inj h).1⟩
  | .loss .. => isFalse fun ⟨_, h⟩ => Export.Event.noConfusion h
  | .note _ => isFalse fun ⟨_, h⟩ => Export.Event.noConfusion h
  | .generationFailed => isFalse fun ⟨_, h⟩ => Export.Event.noConfusion h
  | .staged _ => isFalse fun ⟨_, h⟩ => Export.Event.noConfusion h

/-- The columns a row has are reported exact, all of them. -/
def EveryColumnExact (networkSubject : String) (rows : List (Sourced NetworkIpamConfig)) (log : List Export.Event) :
    Prop :=
  ∀ item ∈ ipamItems rows, ∃ event ∈ log, ReportsExact event (item.subject networkSubject)

instance (networkSubject : String) (rows : List (Sourced NetworkIpamConfig)) (log : List Export.Event) :
    Decidable (EveryColumnExact networkSubject rows log) :=
  inferInstanceAs (Decidable (∀ item ∈ ipamItems rows, ∃ event ∈ log, ReportsExact event (item.subject networkSubject)))

theorem field_injective {key other : NetworkKey} (h : key.field = other.field) : key = other := by
  cases key <;> cases other <;> first | rfl | exact absurd h (by decide)

theorem bracket_not_mem_digits (index : Nat) : ']' ∉ Nat.toDigits 10 index := by
  intro hmem
  exact absurd (Decimal.digits_isDigit index _ hmem) (by decide)

/-- The subject of a column tells the row and the key. -/
theorem ipamSubject_injective {index other : Nat} {key otherKey : NetworkKey}
    (h : Export.ipamSubject networkSubject index key = Export.ipamSubject networkSubject other otherKey) :
    index = other ∧ key = otherKey := by
  unfold Export.ipamSubject at h
  injection h with h
  have hlist := congrArg String.toList h
  simp only [String.toList_append, List.append_cancel_left_eq] at hlist
  have hmarked : ∀ (index : Nat) (key : NetworkKey), (toString index).toList ++ ("].".toList ++ key.field.toList) =
      Nat.toDigits 10 index ++ ']' :: '.' :: key.field.toList := by
    intro index key
    rw [Nat.toString_eq_ofList_toDigits, String.toList_ofList]
    rfl
  have hfield : ∀ key : NetworkKey, ']' ∉ '.' :: key.field.toList := by
    intro key
    cases key <;> decide
  rw [hmarked, hmarked, List.append_cons_inj_of_notMem (bracket_not_mem_digits index) (hfield key)] at hlist
  obtain ⟨hdigits, -, htail⟩ := hlist
  constructor
  · have hread := congrArg Decimal.read hdigits
    rw [Decimal.read_toDigits, Decimal.read_toDigits] at hread
    exact Option.some.inj hread
  · exact field_injective (String.toList_injective (List.cons.inj htail).2)

theorem emit_exact_subject {name : String} {key : Export.EntryKey} {value : String}
    {subject decided : Export.Subject} {origins reported : List Provenance} {builder : Export.UnitBuilder}
    (h : .exact decided reported ∈ (m.emit name key value subject origins builder).log) : decided = subject := by
  unfold Export.Mapping.emit at h
  rw [Reports.mem_log_bind] at h
  rcases h with h | h
  · exact absurd h m.exact_not_mem_capability
  · by_cases havailable : (m.capability name subject origins).value = true
    · rw [if_pos havailable, Reports.mem_log_bind] at h
      rcases h with h | h
      · exact absurd h m.exact_not_mem_push
      · by_cases hpushed : (m.push builder key value subject origins).value.1 = true
        · simp [hpushed, Export.exact] at h
          exact h.1
        · simp [hpushed] at h
    · rw [if_neg havailable] at h
      cases h

def IpamItem.written (builder : Export.UnitBuilder) (item : IpamItem) : Export.UnitBuilder :=
  { builder with entries := builder.entries ++ [item.entry] }

theorem emitNetworkIpamValue_exact {key : NetworkKey} {value : Sourced ProtectedString}
    {subject decided : Export.Subject} {rowOrigins origins : List Provenance} {builder : Export.UnitBuilder}
    (h : .exact decided origins ∈ (m.emitNetworkIpamValue key value subject rowOrigins builder).log) :
    decided = subject ∧ isSafeNetworkScalar value.value.expose false = true ∧
      (m.emitNetworkIpamValue key value subject rowOrigins builder).value =
        { builder with entries := builder.entries ++ [⟨key.entryKey, value.value.expose⟩] } := by
  unfold Export.Mapping.emitNetworkIpamValue at h ⊢
  dsimp only at h ⊢
  by_cases hsafe : isSafeNetworkScalar value.value.expose false = true
  · rw [if_pos hsafe] at h ⊢
    exact ⟨emit_exact_subject h, hsafe, m.emit_exact h⟩
  · rw [if_neg hsafe] at h
    simp [Export.unsupported, Export.loss] at h

theorem ipamColumns_keys (row : NetworkIpamConfig) : ((Export.ipamColumns row).map Prod.fst).Nodup := by
  have hall : ∀ hasGateway hasRange : Bool, (NetworkKey.subnet :: ((if hasGateway then [.gateway] else []) ++
      if hasRange then [.ipRange] else [])).Nodup := by decide
  have hkeys := hall row.gateway.isSome row.ipRange.isSome
  unfold Export.ipamColumns
  cases hgateway : row.gateway <;> cases hrange : row.ipRange <;> rwa [hgateway, hrange] at hkeys

theorem ipamItems_unique (rows : List (Sourced NetworkIpamConfig)) :
    ((ipamItems rows).map (IpamItem.subject networkSubject)).Nodup := by
  unfold ipamItems List.Nodup
  rw [List.pairwise_map, List.pairwise_flatMap]
  constructor
  · intro row _
    rw [List.pairwise_map]
    have hkeys := ipamColumns_keys row.1.value
    rw [List.Nodup, List.pairwise_map] at hkeys
    exact hkeys.imp fun hkey hsubject => hkey (ipamSubject_injective hsubject).2
  · have hindices : rows.zipIdx.Pairwise fun row other => row.2 ≠ other.2 := by
      have hnodup : (rows.zipIdx.map Prod.snd).Nodup := by
        rw [List.zipIdx_map_snd]
        exact List.nodup_range'
      rwa [List.Nodup, List.pairwise_map] at hnodup
    refine hindices.imp fun hindex item hitem other hother hsubject => hindex ?_
    obtain ⟨column, -, rfl⟩ := List.mem_map.mp hitem
    obtain ⟨otherColumn, -, rfl⟩ := List.mem_map.mp hother
    exact (ipamSubject_injective hsubject).1

theorem foldl_written (items : List IpamItem) (builder : Export.UnitBuilder) :
    (items.foldl IpamItem.written builder).entries = builder.entries ++ items.map IpamItem.entry := by
  induction items generalizing builder with
  | nil => exact (List.append_nil _).symm
  | cons item rest ih =>
    rw [List.foldl_cons, ih, List.map_cons, List.append_cons]
    rfl

variable {network : Network} {rows : List (Sourced NetworkIpamConfig)} {builder : Export.UnitBuilder}

/-- The step of the loop over all columns. -/
def writeItem (m : Export.Mapping) (networkSubject : String) (collectionOrigins : List Provenance)
    (builder : Export.UnitBuilder) (item : IpamItem) : Export.Mapped Export.UnitBuilder :=
  m.emitNetworkIpamValue item.2.1 item.2.2 (item.subject networkSubject)
    (Export.networkIpamOrigins collectionOrigins item.1.1) builder

theorem mapNetworkIpam_items (hrows : network.ipamConfigs = some rows) :
    m.mapNetworkIpam networkSubject network builder = (do
      Reports.onlyIf rows.isEmpty (Export.unsupported (.other (networkSubject ++ ".ipam_configs"))
        "an explicit empty IPAM collection has no safe Quadlet reset encoding" network.ipamConfigsOrigins)
      (ipamItems rows).foldlM (writeItem m networkSubject network.ipamConfigsOrigins) builder) := by
  unfold Export.Mapping.mapNetworkIpam
  rw [hrows]
  have hloop : rows.zipIdx.foldlM (m.mapIpamRow networkSubject network.ipamConfigsOrigins) builder =
      (ipamItems rows).foldlM (writeItem m networkSubject network.ipamConfigsOrigins) builder :=
    Reports.foldlM_flatMap rows.zipIdx builder
  dsimp only
  rw [hloop]

theorem writeItem_exact {collectionOrigins : List Provenance} {item : IpamItem} {event : Export.Event}
    {subject : Export.Subject} (h : event ∈ (writeItem m networkSubject collectionOrigins builder item).log)
    (hexact : ReportsExact event subject) :
    subject = item.subject networkSubject ∧ isSafeNetworkScalar item.2.2.value.expose false = true ∧
      (writeItem m networkSubject collectionOrigins builder item).value = item.written builder := by
  obtain ⟨origins, rfl⟩ := hexact
  exact emitNetworkIpamValue_exact h

/-- When every column is reported exact, the columns are the entries, in order, and each is a safe scalar. -/
theorem mapNetworkIpam_exact (hrows : network.ipamConfigs = some rows)
    (hexact : EveryColumnExact networkSubject rows (m.mapNetworkIpam networkSubject network builder).log) :
    (m.mapNetworkIpam networkSubject network builder).value.entries =
        builder.entries ++ (ipamItems rows).map IpamItem.entry ∧
      ∀ item ∈ ipamItems rows, isSafeNetworkScalar item.2.2.value.expose false = true := by
  rw [mapNetworkIpam_items hrows] at hexact ⊢
  have hloop : EveryColumnExact networkSubject rows
      ((ipamItems rows).foldlM (writeItem m networkSubject network.ipamConfigsOrigins) builder).log := by
    intro item hitem
    obtain ⟨event, hevent, hreports⟩ := hexact item hitem
    rw [Reports.mem_log_bind] at hevent
    rcases hevent with hevent | hevent
    · obtain ⟨origins, rfl⟩ := hreports
      cases hempty : rows.isEmpty <;> simp [hempty, Export.unsupported, Export.loss] at hevent
    · exact ⟨event, hevent, hreports⟩
  constructor
  · rw [Reports.value_bind, ← foldl_written]
    apply congrArg
    exact Reports.value_foldlM_named ReportsExact (IpamItem.subject networkSubject) (ipamItems_unique rows)
      (fun _ _ _ hevent _ hreports => (writeItem_exact hevent hreports).1)
      (fun _ _ _ hevent hreports => (writeItem_exact hevent hreports).2.2) hloop
  · intro item hitem
    obtain ⟨event, hevent, hreports⟩ := hloop item hitem
    obtain ⟨other, hother, state, hlog⟩ := Reports.of_mem_log_foldlM hevent
    obtain ⟨hsubject, hsafe, -⟩ := writeItem_exact hlog hreports
    rwa [List.inj_on_of_nodup_map (ipamItems_unique rows) hitem hother hsubject]

end Written

/-! ## Association by position -/

/-- A row of address management without its provenance. -/
structure IpamRow where
  subnet : String
  gateway : Option String
  ipRange : Option String
deriving DecidableEq

def rowOf (row : Sourced NetworkIpamConfig) : IpamRow :=
  ⟨row.value.subnet.value.expose, row.value.gateway.map fun gateway => gateway.value.expose,
    row.value.ipRange.map fun range => range.value.expose⟩

def IpamRow.column (row : IpamRow) : NetworkKey → Option String
  | .subnet => some row.subnet
  | .gateway => row.gateway
  | .ipRange => row.ipRange

/-- The values of a key, in order. -/
def columnOf (key : NetworkKey) (entries : List Export.UnitEntry) : List String :=
  (entries.filter fun entry => entry.key = key.entryKey).map Export.UnitEntry.value

/-- The rows the native generator makes: each gateway and each range belongs to the subnet at its position. -/
def associate (entries : List Export.UnitEntry) : List IpamRow :=
  (columnOf .subnet entries).zipIdx.map fun subnet =>
    ⟨subnet.1, (columnOf .gateway entries)[subnet.2]?, (columnOf .ipRange entries)[subnet.2]?⟩

section Association
open PositionalColumns
variable {rows : List (Sourced NetworkIpamConfig)}

theorem columnOf_append (key : NetworkKey) (entries others : List Export.UnitEntry) :
    columnOf key (entries ++ others) = columnOf key entries ++ columnOf key others := by
  unfold columnOf
  rw [List.filter_append, List.map_append]

def rowEntries (row : Sourced NetworkIpamConfig) : List Export.UnitEntry :=
  (Export.ipamColumns row.value).map fun column => ⟨column.1.entryKey, column.2.value.expose⟩

theorem map_entry_ipamItems (rows : List (Sourced NetworkIpamConfig)) :
    (ipamItems rows).map IpamItem.entry = rows.flatMap rowEntries := by
  have hrow : ∀ row : Sourced NetworkIpamConfig × Nat, ((Export.ipamColumns row.1.value).map
      fun column => (row, column)).map IpamItem.entry = rowEntries row.1 := by
    intro row
    rw [List.map_map]
    rfl
  unfold ipamItems
  rw [List.map_flatMap, funext hrow]
  conv_rhs => rw [← List.zipIdx_map_fst 0 rows, List.flatMap_map]

theorem columnOf_rowEntries (key : NetworkKey) (row : Sourced NetworkIpamConfig) :
    columnOf key (rowEntries row) = ((rowOf row).column key).toList := by
  unfold columnOf rowEntries Export.ipamColumns rowOf
  cases hgateway : row.value.gateway <;> cases hrange : row.value.ipRange <;> cases key <;> rfl

theorem columnOf_rows (key : NetworkKey) (rows : List (Sourced NetworkIpamConfig)) :
    columnOf key (rows.flatMap rowEntries) = (rows.map fun row => (rowOf row).column key).reduceOption := by
  induction rows with
  | nil => rfl
  | cons row rest ih =>
    rw [List.flatMap_cons, columnOf_append, columnOf_rowEntries, ih, List.map_cons]
    cases (rowOf row).column key <;> rfl

theorem columnOf_subnet (rows : List (Sourced NetworkIpamConfig)) :
    columnOf .subnet (rows.flatMap rowEntries) = rows.map fun row => (rowOf row).subnet := by
  rw [columnOf_rows]
  induction rows with
  | nil => rfl
  | cons row rest ih =>
    rw [List.map_cons, List.map_cons, ← ih]
    rfl

theorem eq_of_columns {rows others : List IpamRow} (hsubnet : rows.map IpamRow.subnet = others.map IpamRow.subnet)
    (hgateway : rows.map IpamRow.gateway = others.map IpamRow.gateway)
    (hrange : rows.map IpamRow.ipRange = others.map IpamRow.ipRange) : rows = others := by
  induction rows generalizing others with
  | nil => exact (List.map_eq_nil_iff.mp hsubnet.symm).symm
  | cons row rest ih =>
    cases others with
    | nil => cases hsubnet
    | cons other others =>
      simp only [List.map_cons, List.cons_eq_cons] at hsubnet hgateway hrange
      obtain ⟨hfirst, hsubnet⟩ := hsubnet
      obtain ⟨hsecond, hgateway⟩ := hgateway
      obtain ⟨hthird, hrange⟩ := hrange
      rw [ih hsubnet hgateway hrange]
      cases row
      cases other
      cases hfirst
      cases hsecond
      cases hthird
      rfl

theorem map_positions (subnets values : List String) :
    (subnets.zipIdx.map fun subnet => values[subnet.2]?) = positions subnets.length values := by
  unfold positions
  rw [List.range_eq_range', ← List.zipIdx_map_snd, List.map_map]
  rfl

/-- No row with a value of the key follows a row without one. -/
def LeadingColumn (key : NetworkKey) (rows : List (Sourced NetworkIpamConfig)) : Prop :=
  Leading (rows.map fun row => (rowOf row).column key)

/-- The written rows are associated again exactly when no gateway and no range follows a row without one. -/
theorem associate_iff (rows : List (Sourced NetworkIpamConfig)) :
    associate (rows.flatMap rowEntries) = rows.map rowOf ↔
      LeadingColumn .gateway rows ∧ LeadingColumn .ipRange rows := by
  have hsubnets := columnOf_subnet rows
  have hcount : (columnOf .subnet (rows.flatMap rowEntries)).length = rows.length := by
    rw [hsubnets, List.length_map]
  have hcolumn : ∀ key, positions rows.length (columnOf key (rows.flatMap rowEntries)) =
      (rows.map fun row => (rowOf row).column key) ↔ LeadingColumn key rows := by
    intro key
    have hlength : rows.length = (rows.map fun row => (rowOf row).column key).length := by rw [List.length_map]
    rw [columnOf_rows, hlength]
    exact positions_reduceOption_iff
  have hgateways : (associate (rows.flatMap rowEntries)).map IpamRow.gateway =
      positions rows.length (columnOf .gateway (rows.flatMap rowEntries)) := by
    rw [← hcount, ← map_positions, associate, List.map_map]
    rfl
  have hranges : (associate (rows.flatMap rowEntries)).map IpamRow.ipRange =
      positions rows.length (columnOf .ipRange (rows.flatMap rowEntries)) := by
    rw [← hcount, ← map_positions, associate, List.map_map]
    rfl
  rw [← hcolumn .gateway, ← hcolumn .ipRange, ← hgateways, ← hranges]
  constructor
  · intro h
    rw [h, List.map_map, List.map_map]
    exact ⟨rfl, rfl⟩
  · rintro ⟨hgateway, hrange⟩
    apply eq_of_columns
    · rw [associate, List.map_map, List.map_map]
      show (List.map Prod.fst _) = rows.map fun row => (rowOf row).subnet
      rw [List.zipIdx_map_fst, hsubnets]
    · rw [hgateway, List.map_map]
      rfl
    · rw [hrange, List.map_map]
      rfl

end Association

/-! ## One row read back -/

section Single
variable {fileName subject : String} {documentOrigin : Provenance} {network : Network}

def entryOfRead (entry : Import.IpamEntry) : Export.UnitEntry := ⟨entry.key.entryKey, entry.value⟩

theorem entryKey_injective {key other : NetworkKey} (h : key.entryKey = other.entryKey) : key = other := by
  cases key <;> cases other <;> first | rfl | exact absurd h (by decide)

theorem isSafeNetworkScalar_spec {value : String} (h : isSafeNetworkScalar value false = true) :
    value.isEmpty = false ∧ ∀ kind, validateText kind value = .ok () := by
  unfold isSafeNetworkScalar at h
  rw [Bool.false_or, Bool.and_eq_true, Bool.and_eq_true, Bool.not_eq_true'] at h
  obtain ⟨⟨hnonempty, -⟩, hclean⟩ := h
  have hnul : '\x00' ∉ value.toList := by
    intro hmem
    rw [Bool.not_eq_true', List.any_eq_false] at hclean
    exact hclean _ hmem (by decide)
  refine ⟨hnonempty, fun kind => validateText_of_clean (fun hempty => ?_) hnul⟩
  rw [hempty] at hnonempty
  cases hnonempty

/-- One subnet with at most one value of the other keys after it becomes a row. -/
theorem mapNetworkIpam_single {subnet : Import.IpamEntry} {rest : List Import.IpamEntry} {row : NetworkIpamConfig}
    (hsubnet : subnet.key = .subnet) (hsafe : ∀ entry ∈ subnet :: rest, isSafeNetworkScalar entry.value false = true)
    (hone : Import.countKey (subnet :: rest) .subnet = 1) (hgateway : Import.countKey (subnet :: rest) .gateway ≤ 1)
    (hrange : Import.countKey (subnet :: rest) .ipRange ≤ 1)
    (hrow : Import.setIpamColumns { subnet := ⟨.sensitive subnet.value, [subnet.origin]⟩ } rest = .ok row) :
    (Import.mapNetworkIpam fileName subject (subnet :: rest) documentOrigin network).value =
      { network with ipamConfigs := some (network.ipamConfigs.getD [] ++ [⟨row, [subnet.origin]⟩]) } := by
  have hempty : ((subnet :: rest).any fun entry => entry.value.isEmpty) = false := by
    rw [List.any_eq_false]
    intro entry hentry
    rw [(isSafeNetworkScalar_spec (hsafe entry hentry)).1]
    exact Bool.false_ne_true
  have hunsafe : ((subnet :: rest).any fun entry => !isSafeNetworkScalar entry.value false) = false := by
    rw [List.any_eq_false]
    intro entry hentry
    rw [hsafe entry hentry]
    exact Bool.false_ne_true
  have hnone : (Import.countKey (subnet :: rest) .subnet = 0 && (0 < Import.countKey (subnet :: rest) .gateway ||
      0 < Import.countKey (subnet :: rest) .ipRange)) = false := by
    rw [hone]
    rfl
  have hmany : (Import.countKey (subnet :: rest) .subnet ≠ 1 || 1 < Import.countKey (subnet :: rest) .gateway ||
      1 < Import.countKey (subnet :: rest) .ipRange) = false := by
    rw [hone]
    simpa using ⟨hgateway, hrange⟩
  have hkey : ¬ decide (subnet.key ≠ .subnet) = true := by simpa using hsubnet
  have hdrop : (subnet :: rest).dropWhile (fun entry => entry.key ≠ .subnet) = subnet :: rest :=
    List.dropWhile_cons_of_neg hkey
  have htake : (subnet :: rest).takeWhile (fun entry => entry.key ≠ .subnet) = [] :=
    List.takeWhile_cons_of_neg hkey
  have hnew : Import.newIpamConfig ⟨.sensitive subnet.value, [subnet.origin]⟩ =
      .ok { subnet := ⟨.sensitive subnet.value, [subnet.origin]⟩ } := by
    unfold Import.newIpamConfig
    rw [ProtectedString.expose_sensitive,
      (isSafeNetworkScalar_spec (hsafe subnet List.mem_cons_self)).2]
    rfl
  unfold Import.mapNetworkIpam
  simp only [hempty, hunsafe, hnone, hmany, List.isEmpty_cons, hdrop, htake, List.any_nil, hnew, hrow,
    Bool.false_eq_true, if_false]
  rfl

/-- The entries read for a column that a row may have. -/
theorem reads_column {key : NetworkKey} {column : Option (Sourced ProtectedString)} {read : List Import.IpamEntry}
    (h : read.map entryOfRead = (column.toList.map (key, ·)).map
      fun column : NetworkKey × Sourced ProtectedString => ⟨column.1.entryKey, column.2.value.expose⟩) :
    (column = none ∧ read = []) ∨
      ∃ value origin, column = some value ∧ read = [⟨key, value.value.expose, origin⟩] := by
  cases column with
  | none => exact Or.inl ⟨rfl, List.map_eq_nil_iff.mp h⟩
  | some value =>
    obtain ⟨entry, rest, rfl, hentry, hrest⟩ := List.map_eq_cons_iff.mp h
    obtain ⟨entryKey, entryValue, origin⟩ := entry
    injection hentry with hkey hvalue
    cases entryKey_injective hkey
    cases hvalue
    exact Or.inr ⟨value, origin, rfl, by rw [List.map_eq_nil_iff.mp hrest]⟩

theorem setIpamColumns_gateway {row : NetworkIpamConfig} {value : String} {origin : Provenance}
    (hvalue : isSafeNetworkScalar value false = true) (rest : List Import.IpamEntry) :
    Import.setIpamColumns row (⟨.gateway, value, origin⟩ :: rest) =
      Import.setIpamColumns { row with gateway := some ⟨.sensitive value, [origin]⟩ } rest := by
  unfold Import.setIpamColumns
  rw [List.foldlM_cons]
  simp only [Import.setIpamColumn, (isSafeNetworkScalar_spec hvalue).2]
  rfl

theorem setIpamColumns_range {row : NetworkIpamConfig} {value : String} {origin : Provenance}
    (hvalue : isSafeNetworkScalar value false = true) (rest : List Import.IpamEntry) :
    Import.setIpamColumns row (⟨.ipRange, value, origin⟩ :: rest) =
      Import.setIpamColumns { row with ipRange := some ⟨.sensitive value, [origin]⟩ } rest := by
  unfold Import.setIpamColumns
  rw [List.foldlM_cons]
  simp only [Import.setIpamColumn, (isSafeNetworkScalar_spec hvalue).2]
  rfl

/-- The reader takes a row of safe scalars back. -/
theorem mapNetworkIpam_row {row : Sourced NetworkIpamConfig} {read : List Import.IpamEntry}
    (hread : read.map entryOfRead = rowEntries row)
    (hsafe : ∀ entry ∈ read, isSafeNetworkScalar entry.value false = true) :
    ∃ added, rowOf added = rowOf row ∧
      (Import.mapNetworkIpam fileName subject read documentOrigin network).value.ipamConfigs =
        some (network.ipamConfigs.getD [] ++ [added]) := by
  obtain ⟨⟨subnet, gateway, range⟩, origins⟩ := row
  obtain ⟨first, rest, rfl, hfirst, hrest⟩ := List.map_eq_cons_iff.mp hread
  obtain ⟨firstKey, firstValue, origin⟩ := first
  injection hfirst with hkey hvalue
  cases entryKey_injective hkey
  cases hvalue
  rw [List.map_append] at hrest
  obtain ⟨gateways, ranges, rfl, hgateways, hranges⟩ := List.map_eq_append_iff.mp hrest
  obtain ⟨rfl, rfl⟩ | ⟨gateway, gatewayOrigin, rfl, rfl⟩ := reads_column hgateways <;>
  obtain ⟨rfl, rfl⟩ | ⟨range, rangeOrigin, rfl, rfl⟩ := reads_column hranges
  · refine ⟨_, ?_, congrArg Network.ipamConfigs
      (mapNetworkIpam_single rfl hsafe rfl (Nat.zero_le 1) (Nat.zero_le 1) rfl)⟩
    rfl
  · have hrange := hsafe ⟨.ipRange, range.value.expose, rangeOrigin⟩ (by simp)
    refine ⟨_, ?_, congrArg Network.ipamConfigs
      (mapNetworkIpam_single rfl hsafe rfl (Nat.zero_le 1) (Nat.le_refl 1) (setIpamColumns_range hrange []))⟩
    rfl
  · have hgateway := hsafe ⟨.gateway, gateway.value.expose, gatewayOrigin⟩ (by simp)
    refine ⟨_, ?_, congrArg Network.ipamConfigs
      (mapNetworkIpam_single rfl hsafe rfl (Nat.le_refl 1) (Nat.zero_le 1) (setIpamColumns_gateway hgateway []))⟩
    rfl
  · have hgateway := hsafe ⟨.gateway, gateway.value.expose, gatewayOrigin⟩ (by simp)
    have hrange := hsafe ⟨.ipRange, range.value.expose, rangeOrigin⟩ (by simp)
    refine ⟨_, ?_, congrArg Network.ipamConfigs (mapNetworkIpam_single rfl hsafe rfl (Nat.le_refl 1) (Nat.le_refl 1)
      ((setIpamColumns_gateway hgateway _).trans (setIpamColumns_range hrange [])))⟩
    rfl

end Single

/-! ## Emitted rows -/

section Emitted
variable {m : Export.Mapping} {networkSubject : String} {network : Network} {builder : Export.UnitBuilder}

/-- When every column is reported exact, the emitted values give the rows back by position exactly when no
gateway and no range follows a row without one. The reader takes at most one row back. -/
theorem network_ipam_codec (hexact : EveryColumnExact networkSubject (network.ipamConfigs.getD [])
    (m.mapNetworkIpam networkSubject network builder).log) :
    ∃ emitted, (m.mapNetworkIpam networkSubject network builder).value.entries = builder.entries ++ emitted ∧
      (associate emitted = (network.ipamConfigs.getD []).map rowOf ↔
        LeadingColumn .gateway (network.ipamConfigs.getD []) ∧ LeadingColumn .ipRange (network.ipamConfigs.getD [])) ∧
      ((network.ipamConfigs.getD []).length ≤ 1 → ∀ (fileName subject : String) (documentOrigin : Provenance)
        (fresh : Network) (read : List Import.IpamEntry), fresh.ipamConfigs = none → read.map entryOfRead = emitted →
          ((Import.mapNetworkIpam fileName subject read documentOrigin fresh).value.ipamConfigs.getD []).map rowOf =
            (network.ipamConfigs.getD []).map rowOf) := by
  obtain ⟨rows, hrows⟩ : ∃ rows, network.ipamConfigs.getD [] = rows := ⟨_, rfl⟩
  have hmapped : (m.mapNetworkIpam networkSubject network builder).value.entries =
      builder.entries ++ rows.flatMap rowEntries ∧
        ∀ item ∈ ipamItems rows, isSafeNetworkScalar item.2.2.value.expose false = true := by
    cases hconfigs : network.ipamConfigs with
    | none =>
      rw [hconfigs] at hrows
      cases hrows
      unfold Export.Mapping.mapNetworkIpam
      rw [hconfigs]
      exact ⟨(List.append_nil _).symm, fun item hitem => absurd hitem List.not_mem_nil⟩
    | some configs =>
      rw [hconfigs, Option.getD_some] at hrows hexact
      cases hrows
      rw [← map_entry_ipamItems]
      exact mapNetworkIpam_exact hconfigs hexact
  rw [hrows]
  refine ⟨_, hmapped.1, associate_iff rows, fun hone fileName subject documentOrigin fresh read hfresh hread => ?_⟩
  cases rows with
  | nil =>
    rw [List.map_eq_nil_iff.mp hread]
    show (fresh.ipamConfigs.getD []).map rowOf = _
    rw [hfresh]
    rfl
  | cons row rest =>
    cases List.length_eq_zero_iff.mp (Nat.le_zero.mp (Nat.le_of_succ_le_succ hone))
    rw [List.flatMap_singleton] at hread
    have hsafe : ∀ entry ∈ read, isSafeNetworkScalar entry.value false = true := by
      intro entry hentry
      have hwritten : entryOfRead entry ∈ (ipamItems [row]).map IpamItem.entry := by
        rw [map_entry_ipamItems, List.flatMap_singleton, ← hread]
        exact List.mem_map_of_mem hentry
      obtain ⟨item, hitem, hsame⟩ := List.mem_map.mp hwritten
      have hvalue := hmapped.2 item hitem
      injection hsame with _ hsame
      rwa [hsame] at hvalue
    obtain ⟨added, hadded, hconfigs⟩ := @mapNetworkIpam_row fileName subject documentOrigin fresh row read hread hsafe
    rw [hconfigs, hfresh]
    show [rowOf added] = [rowOf row]
    rw [hadded]

end Emitted

def plainSourced (text : String) : Sourced ProtectedString := ⟨.plain text, []⟩

/-- A network with two rows, and gateways for them. -/
def twoRows (first second : Option String) : Network :=
  { name := ⟨"lan", by decide⟩, ownership := .application,
    ipamConfigs := some [⟨⟨plainSourced "10.0.0.0/24", first.map plainSourced, none⟩, []⟩,
      ⟨⟨plainSourced "10.0.1.0/24", second.map plainSourced, none⟩, []⟩] }

theorem network_ipam_codec_leading :
    ∃ emitted, (Export.permissiveMapping.mapNetworkIpam "networks.lan" (twoRows (some "10.0.0.1") none)
        ⟨.network, []⟩).value.entries = emitted ∧
      associate emitted = [⟨"10.0.0.0/24", some "10.0.0.1", none⟩, ⟨"10.0.1.0/24", none, none⟩] := by
  obtain ⟨emitted, hentries, hrows, -⟩ := @network_ipam_codec Export.permissiveMapping "networks.lan"
    (twoRows (some "10.0.0.1") none) ⟨.network, []⟩ (by decide +kernel)
  refine ⟨emitted, hentries, hrows.mpr ?_⟩
  unfold LeadingColumn PositionalColumns.Leading
  decide

/-- The gateway of the second row is reported exact and given to the first one. -/
theorem gateway_moves_to_the_first_row :
    let mapped := Export.permissiveMapping.mapNetworkIpam "networks.lan" (twoRows none (some "10.0.1.1")) ⟨.network, []⟩
    EveryColumnExact "networks.lan" ((twoRows none (some "10.0.1.1")).ipamConfigs.getD []) mapped.log ∧
      associate mapped.value.entries = [⟨"10.0.0.0/24", some "10.0.1.1", none⟩, ⟨"10.0.1.0/24", none, none⟩] ∧
      ((twoRows none (some "10.0.1.1")).ipamConfigs.getD []).map rowOf =
        [⟨"10.0.0.0/24", none, none⟩, ⟨"10.0.1.0/24", some "10.0.1.1", none⟩] := by
  decide +kernel

end Boxferry.Quadlet
