import Mathlib.Data.List.Sort
import Mathlib.Data.String.Basic
import SmartHomeEnergy.Dashboard.Devices
import SmartHomeEnergy.Transition.Attempt
import SmartHomeEnergy.Transition.Run

/-!
# The history of a device

Devices come and go through two forms of the panel, and any of their requests may fail on the way.
`add_new_device` catches what its statements raise and redirects all the same;
`control_device` catches nothing. In both the commit may raise although the database has stored
the change, and closing the connection may raise after it.

Whatever the requests were, the row of a device is made of three of them: the first one that
stored it decides its name and its type, the last `add_new_device` that was stored its power and
its criticality, and the last `control_device` after the first its override
(`SmartHomeEnergy.Registered`). The panel lists each device that is stored once, in the order of
the ids, with these values (`SmartHomeEnergy.registry_exec`).
-/

namespace SmartHomeEnergy

open Relational Transition

/-! ### The two forms -/

/-- The form of `add_new_device`. -/
structure NewDeviceForm where
  deviceId : String
  deviceName : String
  deviceType : String
  initialStatus : String
  baseWatts : ℚ
  critical : Bool
  deriving DecidableEq

/-- The row that is inserted. -/
def NewDeviceForm.row (form : NewDeviceForm) : DeviceRow where
  deviceId := form.deviceId
  deviceType := some form.deviceType
  overrideStatus := some form.initialStatus
  baseWatts := some form.baseWatts
  critical := some form.critical
  deviceName := some form.deviceName

/-- What the panel is sent. -/
inductive PanelRequest
  | control (deviceId action : String)
  | add (form : NewDeviceForm)
  deriving DecidableEq

/-- Where a request raises. -/
inductive PanelFault
  /-- There is no connection. -/
  | connect
  /-- A statement raises. -/
  | execute
  /-- The commit raises, and the database may have stored the change. -/
  | commit (stored : Bool)
  /-- The connection is not closed. -/
  | close
  deriving DecidableEq

/-- What a fault keeps from being stored. -/
def PanelFault.Prevents : PanelFault → Prop
  | .connect | .execute => True
  | .commit stored => stored = false
  | .close => False

instance : DecidablePred PanelFault.Prevents := fun f => by
  cases f <;> unfold PanelFault.Prevents <;> infer_instance

/-- `control_device` as a request: an exception is not caught. -/
def controlDeviceRequest (deviceId action : String) (fault : Option PanelFault)
    (t : DevicesStatus) : Attempt DevicesStatus :=
  match controlDevice deviceId action t with
  | none => .raise t
  | some t' =>
    match fault with
    | none => .done t'
    | some f => .raise (if f.Prevents then t else t')

/-- `add_new_device` as a request: connecting is outside the `try`, and closing in its
`finally`; what is raised in between is caught. -/
def addNewDeviceRequest (form : NewDeviceForm) (fault : Option PanelFault) (t : DevicesStatus) :
    Attempt DevicesStatus :=
  match fault with
  | none => .done (addNewDevice form.row t)
  | some .connect => .raise t
  | some .execute => .done t
  | some (.commit stored) => .done (if stored then addNewDevice form.row t else t)
  | some .close => .raise (addNewDevice form.row t)

/-- A request of the panel. -/
def panelRequest (fault : Option PanelFault) : PanelRequest → DevicesStatus → Attempt DevicesStatus
  | .control deviceId action => controlDeviceRequest deviceId action fault
  | .add form => addNewDeviceRequest form fault

/-- One request after the other. -/
def panelStep (t : DevicesStatus) (r : PanelRequest × Option PanelFault) : DevicesStatus :=
  (panelRequest r.2 r.1 t).state

/-- What the panel shows of a device. -/
def panelEntry (row : DeviceRow) : String × Option String × Option String × Option String :=
  (row.deviceId, row.deviceName, row.deviceType, row.overrideStatus)

/-- `devices_panel_page`: the devices, in the order of the ids. -/
def devicesPanelPage (t : DevicesStatus) :
    List (String × Option String × Option String × Option String) :=
  (t.rows.insertionSort fun a b => a.deviceId ≤ b.deviceId).map panelEntry

/-! ### What is stored -/

/-- A request that asks for something. -/
def PanelRequest.Valid : PanelRequest → Prop
  | .control _ action => action ∈ ["AUTO", "ON", "OFF"]
  | .add _ => True

instance : DecidablePred PanelRequest.Valid := fun r => by
  cases r <;> unfold PanelRequest.Valid <;> infer_instance

/-- The request is stored. -/
def Stored (r : PanelRequest × Option PanelFault) : Prop :=
  r.1.Valid ∧ ∀ f ∈ r.2, ¬f.Prevents

instance : DecidablePred Stored := fun r =>
  decidable_of_iff (r.1.Valid ∧ ¬∃ f ∈ r.2, f.Prevents) (by simp [Stored])

/-- The requests that are stored. -/
def storedRequests (rs : List (PanelRequest × Option PanelFault)) : List PanelRequest :=
  (rs.filter Stored).map Prod.fst

/-- What a request makes of the table, when it is stored. -/
def applyRequest (t : DevicesStatus) : PanelRequest → DevicesStatus
  | .control deviceId action => (controlDevice deviceId action t).getD t
  | .add form => addNewDevice form.row t

/-- **A request** is stored as a whole, or not at all. -/
theorem panelStep_eq (t : DevicesStatus) (r : PanelRequest × Option PanelFault) :
    panelStep t r = if Stored r then applyRequest t r.1 else t := by
  obtain ⟨request, fault⟩ := r
  cases request with
  | control deviceId action =>
    rw [panelStep, panelRequest, controlDeviceRequest]
    cases hcontrol : controlDevice deviceId action t with
    | none =>
      have hinvalid : action ∉ ["AUTO", "ON", "OFF"] := fun h => by
        simp [controlDevice, h] at hcontrol
      rw [if_neg fun h => hinvalid h.1]
      rfl
    | some t' =>
      have hvalid := (controlDevice_eq_some hcontrol).1
      cases fault with
      | none => simp [Stored, PanelRequest.Valid, hvalid, applyRequest, hcontrol]
      | some f =>
        by_cases hf : f.Prevents <;>
          simp [Stored, PanelRequest.Valid, hvalid, applyRequest, hcontrol, hf]
  | add form =>
    have hstored : Stored (.add form, fault) ↔ ∀ f ∈ fault, ¬f.Prevents := by
      simp [Stored, PanelRequest.Valid]
    rw [panelStep, panelRequest]
    simp only [hstored, applyRequest]
    cases fault with
    | none => simp [addNewDeviceRequest]
    | some f =>
      cases f with
      | commit stored => cases stored <;> simp [addNewDeviceRequest, PanelFault.Prevents]
      | _ => simp [addNewDeviceRequest, PanelFault.Prevents]

/-- A history leaves what its stored requests leave. -/
theorem exec_panelStep (t : DevicesStatus) (rs : List (PanelRequest × Option PanelFault)) :
    exec panelStep t rs = exec applyRequest t (storedRequests rs) := by
  induction rs generalizing t with
  | nil => rfl
  | cons r rs ih =>
    rw [exec_cons, panelStep_eq, ih, storedRequests, storedRequests]
    by_cases hr : Stored r <;> simp [hr]

/-! ### The row of a device -/

section Row

variable {d : String} {t : DevicesStatus}

/-- The action that is asked for a device. -/
def actionFor (d : String) : PanelRequest → Option String
  | .control deviceId action => if deviceId = d then some action else none
  | .add _ => none

/-- The form that adds a device. -/
def formFor (d : String) : PanelRequest → Option NewDeviceForm
  | .control .. => none
  | .add form => if form.deviceId = d then some form else none

/-- **What requests make of a row**: the last action decides the override, and the last form the
power and the criticality. -/
def DeviceRow.after (row : DeviceRow) (d : String) (requests : List PanelRequest) : DeviceRow :=
  let lastForm := (requests.filterMap (formFor d)).getLast?
  { row with
    overrideStatus := (requests.filterMap (actionFor d)).getLast?.or row.overrideStatus
    baseWatts := (lastForm.map (·.baseWatts)).or row.baseWatts
    critical := (lastForm.map (·.critical)).or row.critical }

/-- **How a device came to its row**: a request has added it, and the requests after that one
have made the row what it is. -/
def Registered (d : String) (requests : List PanelRequest) (row : DeviceRow) : Prop :=
  ∃ before form after, requests = before ++ .add form :: after ∧ form.deviceId = d ∧
    (∀ r ∈ before, formFor d r = none) ∧ row = form.row.after d after

@[simp] theorem DeviceRow.after_nil (row : DeviceRow) (d : String) : row.after d [] = row := rfl

/-- What one more request makes of a row. -/
theorem find_applyRequest (t : DevicesStatus) (r : PanelRequest) (hr : r.Valid) (d : String) :
    (applyRequest t r).find d =
      match t.find d with
      | some row => some (row.after d [r])
      | none => (formFor d r).map NewDeviceForm.row := by
  cases r with
  | control deviceId action =>
    have hcontrol : controlDevice deviceId action t =
        some (t.updateWhere (fun r => r.deviceId = deviceId) (DeviceRow.withOverride action)
          (deviceKey_withOverride action)) := if_pos hr
    rw [applyRequest, hcontrol, Option.getD_some, Table.find_updateWhere]
    cases hd : t.find d with
    | none => rfl
    | some row =>
      obtain rfl : row.deviceId = d := Option.some.inj (Table.mem_of_find hd).2
      by_cases hid : row.deviceId = deviceId
      · simp [DeviceRow.after, DeviceRow.withOverride, formFor, actionFor, hid]
      · simp [DeviceRow.after, formFor, actionFor, hid, Ne.symm hid]
  | add form =>
    rw [applyRequest, addNewDevice, Table.find_upsert]
    by_cases hid : form.deviceId = d
    · cases hd : t.find d with
      | none => simp [deviceKey, NewDeviceForm.row, formFor, hid]
      | some row =>
        simp [deviceKey, NewDeviceForm.row, deviceUpsert, DeviceRow.after, formFor, actionFor, hid]
    · cases hd : t.find d with
      | none => simp [deviceKey, NewDeviceForm.row, formFor, hid]
      | some row => simp [deviceKey, NewDeviceForm.row, DeviceRow.after, formFor, actionFor, hid]

theorem DeviceRow.after_snoc (row : DeviceRow) (d : String) (requests : List PanelRequest)
    (r : PanelRequest) : row.after d (requests ++ [r]) = (row.after d requests).after d [r] := by
  cases r with
  | control deviceId action =>
    by_cases hid : deviceId = d <;> simp [DeviceRow.after, formFor, actionFor, hid]
  | add form =>
    by_cases hid : form.deviceId = d <;> simp [DeviceRow.after, formFor, actionFor, hid]

/-- **A device that was stored before** has its row, changed by the requests. -/
theorem find_exec_of_some {row : DeviceRow} (h : t.find d = some row) {rs : List PanelRequest}
    (hrs : ∀ r ∈ rs, r.Valid) : (exec applyRequest t rs).find d = some (row.after d rs) := by
  induction rs using List.reverseRecOn with
  | nil => simpa using h
  | append_singleton rs r ih =>
    have hrows := ih fun r' hr' => hrs r' (List.mem_append_left _ hr')
    rw [exec_append, exec_cons, exec_nil, find_applyRequest _ r (hrs r (by simp)), hrows,
      DeviceRow.after_snoc]

/-- **A device that was not stored before** has a row when a request has added it. -/
theorem find_exec_of_none (h : t.find d = none) {rs : List PanelRequest}
    (hrs : ∀ r ∈ rs, r.Valid) (row : DeviceRow) :
    (exec applyRequest t rs).find d = some row ↔ Registered d rs row := by
  induction rs generalizing t with
  | nil => simp [h, Registered]
  | cons r rs ih =>
    have hr := find_applyRequest t r (hrs r List.mem_cons_self) d
    have hvalid : ∀ r' ∈ rs, r'.Valid := fun r' hr' => hrs r' (List.mem_cons_of_mem _ hr')
    rw [h] at hr
    rw [exec_cons]
    cases hform : formFor d r with
    | none =>
      rw [ih (by simpa [hform] using hr) hvalid]
      constructor
      · rintro ⟨before, form, after, rfl, hid, hbefore, hrow⟩
        refine ⟨r :: before, form, after, rfl, hid, fun r' hr' => ?_, hrow⟩
        rcases List.mem_cons.mp hr' with rfl | hr'
        · exact hform
        · exact hbefore r' hr'
      · rintro ⟨before, form, after, hsplit, hid, hbefore, hrow⟩
        cases before with
        | nil =>
          obtain ⟨rfl, -⟩ := List.cons.inj hsplit
          simp [formFor, hid] at hform
        | cons r' before =>
          obtain ⟨-, rfl⟩ := List.cons.inj hsplit
          exact ⟨before, form, after, rfl, hid,
            fun x hx => hbefore x (List.mem_cons_of_mem _ hx), hrow⟩
    | some form =>
      have hstored : (applyRequest t r).find d = some form.row := by simpa [hform] using hr
      obtain ⟨rfl, hid⟩ : r = .add form ∧ form.deviceId = d := by
        cases r with
        | control => simp [formFor] at hform
        | add form' =>
          rw [formFor] at hform
          split at hform
          next hid =>
            obtain rfl := Option.some.inj hform
            exact ⟨rfl, hid⟩
          next => exact absurd hform (by simp)
      rw [find_exec_of_some hstored hvalid]
      constructor
      · intro hrow
        exact ⟨[], form, rs, rfl, hid, by simp, (Option.some.inj hrow).symm⟩
      · rintro ⟨before, form', after, hsplit, -, hbefore, rfl⟩
        cases before with
        | nil =>
          obtain ⟨hadd, rfl⟩ := List.cons.inj hsplit
          obtain rfl := PanelRequest.add.inj hadd
          rfl
        | cons r' before =>
          obtain ⟨rfl, -⟩ := List.cons.inj hsplit
          exact absurd (hbefore _ List.mem_cons_self) (by simp [hform])

end Row

/-! ### The panel -/

/-- The panel lists each device once, in the order of the ids. -/
theorem devicesPanelPage_sorted (t : DevicesStatus) :
    ((devicesPanelPage t).map Prod.fst).Pairwise (· < ·) := by
  have hids : (t.rows.map (·.deviceId)).Nodup := by
    have hkey : t.rows.filterMap deviceKey = t.rows.map (·.deviceId) :=
      congrFun List.filterMap_eq_map' t.rows
    exact hkey ▸ t.unique
  have hperm := List.perm_insertionSort (fun a b : DeviceRow => a.deviceId ≤ b.deviceId) t.rows
  have hnodup := (hperm.map (·.deviceId)).nodup_iff.mpr hids
  rw [List.Nodup, List.pairwise_map] at hnodup
  have hsorted := List.pairwise_insertionSort
    (fun a b : DeviceRow => a.deviceId ≤ b.deviceId) t.rows
  rw [devicesPanelPage, List.map_map]
  refine List.pairwise_map.mpr ((hsorted.and hnodup).imp ?_)
  exact fun h => lt_of_le_of_ne h.1 h.2

theorem valid_of_mem_storedRequests {rs : List (PanelRequest × Option PanelFault)}
    {r : PanelRequest} (h : r ∈ storedRequests rs) : r.Valid := by
  obtain ⟨r', hr', rfl⟩ := List.mem_map.mp h
  exact (of_decide_eq_true (List.mem_filter.mp hr').2).1

/-- **The history of a row**: a device that was stored before has its row, with what the requests
have changed, and any other has one that a request has added. -/
def StandsAfter (t : DevicesStatus) (requests : List PanelRequest) (row : DeviceRow) : Prop :=
  match t.find row.deviceId with
  | some old => row = old.after row.deviceId requests
  | none => Registered row.deviceId requests row

/-- **The rows** are those that the stored requests account for. -/
theorem mem_exec_panelStep (t : DevicesStatus) (rs : List (PanelRequest × Option PanelFault))
    (row : DeviceRow) :
    row ∈ (exec panelStep t rs).rows ↔ StandsAfter t (storedRequests rs) row := by
  have hvalid : ∀ r ∈ storedRequests rs, r.Valid := fun r hr => valid_of_mem_storedRequests hr
  have hkey : deviceKey row = some row.deviceId := rfl
  rw [exec_panelStep, Table.mem_iff_find hkey, StandsAfter]
  cases hold : t.find row.deviceId with
  | some old =>
    rw [find_exec_of_some hold hvalid, Option.some.injEq]
    exact eq_comm
  | none => exact find_exec_of_none hold hvalid row

/-- **The history of the devices**: after any requests, whichever of them fail, the rows are those
that the stored requests account for, and the panel lists each of them once, in the order of the
ids. -/
theorem registry_exec (t : DevicesStatus) (rs : List (PanelRequest × Option PanelFault)) :
    (∀ row, row ∈ (exec panelStep t rs).rows ↔ StandsAfter t (storedRequests rs) row) ∧
      (devicesPanelPage (exec panelStep t rs)).Perm
        ((exec panelStep t rs).rows.map panelEntry) ∧
      ((devicesPanelPage (exec panelStep t rs)).map Prod.fst).Pairwise (· < ·) :=
  ⟨mem_exec_panelStep t rs, (List.perm_insertionSort _ _).map _, devicesPanelPage_sorted _⟩

end SmartHomeEnergy
