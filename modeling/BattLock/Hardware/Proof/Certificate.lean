import BattLock.Hardware.Battery
import BattLock.Hardware.Proof.SendPayload
import BattLock.Hardware.Vehicle

/-!
# The certificate from the battery to the vehicle

`BattLockCert` has 150 bytes, `BATTLOCK_CERT_LEN` is 148. What the vehicle looks at after the
transfer is the battery's certificate with the last two bytes of its signature replaced by what is
in memory behind `cert_raw` (`certificate_transfer`), and the copy that starts the transfer writes
two bytes behind its destination (`not_certificateArrives`), for every certificate.
-/

namespace BattLock.Hardware

open CArray Python Transport

/-! ## The struct and its bytes -/

namespace BattLockCert

theorem toList_bytes (c : BattLockCert) : c.bytes.toList =
    c.batteryId.toList ++ c.manufacturerId.toList ++ c.dates.toList ++ c.publicKey.toList ++
      c.signature.toList := by
  simp only [bytes, sizeofBattLockCert, Vector.toList_append]

theorem ofBytes_bytes (c : BattLockCert) : ofBytes c.bytes = c := by
  have hbytes : c.bytes.toList = c.batteryId.toList ++ (c.manufacturerId.toList ++
      (c.dates.toList ++ (c.publicKey.toList ++ c.signature.toList))) := by
    rw [toList_bytes]
    simp only [List.append_assoc]
  have hid : c.batteryId.toList.length = 7 := Vector.length_toList
  have hdates : sub c.bytes 15 6 = c.dates :=
    sub_of_append (a := c.batteryId.toList ++ c.manufacturerId.toList)
      (by rw [hbytes, List.append_assoc]) (by simp [hid])
  have hdate {i : Nat} (hi : i < 6) : c.bytes.toList.getD (15 + i) 0 = c.dates[i] := by
    rw [← getElem_sub c.bytes 15 hi, hdates]
  apply BattLockCert.ext
  case batteryId => exact sub_of_append (a := []) (by rw [hbytes]; rfl) rfl
  case manufacturerId => exact sub_of_append hbytes hid
  case issueYear => exact hdate (show 0 < 6 by decide)
  case issueMonth => exact hdate (show 1 < 6 by decide)
  case issueDay => exact hdate (show 2 < 6 by decide)
  case expiryYear => exact hdate (show 3 < 6 by decide)
  case expiryMonth => exact hdate (show 4 < 6 by decide)
  case expiryDay => exact hdate (show 5 < 6 by decide)
  case publicKey =>
    exact sub_of_append
      (a := c.batteryId.toList ++ c.manufacturerId.toList ++ c.dates.toList)
      (b := c.signature.toList) (by rw [hbytes]; simp only [List.append_assoc]) (by simp [hid])
  case signature =>
    exact sub_of_append (b := [])
      (a := c.batteryId.toList ++ c.manufacturerId.toList ++ c.dates.toList ++ c.publicKey.toList)
      (by rw [hbytes]; simp only [List.append_assoc, List.append_nil]) (by simp [hid])

/-- The certificate with other bytes at the end of its signature. -/
def withTail (c : BattLockCert) (tail : Vector UInt8 2) : BattLockCert :=
  { c with signature := sub c.signature 0 62 ++ tail }

theorem withTail_eq_iff (c : BattLockCert) (tail : Vector UInt8 2) :
    c.withTail tail = c ↔ tail = sub c.signature 62 2 := by
  have hsplit : c.signature.toList =
      (sub c.signature 0 62).toList ++ (sub c.signature 62 2).toList := by
    rw [toList_sub (by decide), toList_sub (by decide), List.drop_zero,
      List.take_of_length_le (l := c.signature.toList.drop 62) (by simp), List.take_append_drop]
  constructor
  · intro h
    have hsig := congrArg (fun c => c.signature.toList) h
    simp only [withTail, Vector.toList_append, hsplit] at hsig
    exact Vector.toList_inj.1 (List.append_cancel_left hsig)
  · intro h
    have hsig : sub c.signature 0 62 ++ tail = c.signature :=
      Vector.toList_inj.1 (by rw [Vector.toList_append, h, ← hsplit])
    rw [withTail, hsig]

end BattLockCert

/-! ## The copies at both ends -/

/-- What of the certificate fits the array. -/
theorem toList_rawCertificate (c : BattLockCert) :
    (Battery.rawCertificate c).toList = c.bytes.toList.take battlockCertLen := by
  have hcopy : Battery.rawCertificate c =
      copyBytes (Vector.replicate battlockCertLen 0) 0 c.bytes 0 battlockCertLen :=
    copyBytes_of_le (by decide) 2
  rw [hcopy, toList_copyBytes (by decide) (by decide), List.take_zero, List.drop_zero,
    List.nil_append, List.drop_eq_nil_of_le (by simp), List.append_nil]

/-- The cast of `cert_raw` sees the two bytes behind it. -/
theorem certView_rawCertificate (c : BattLockCert) (beyond : Vector UInt8 2) :
    certView (Battery.rawCertificate c) beyond = c.withTail beyond := by
  have hfront : (c.batteryId.toList ++ c.manufacturerId.toList ++ c.dates.toList ++
      c.publicKey.toList).length = 86 := by
    have hid : c.batteryId.toList.length = 7 := Vector.length_toList
    simp [hid]
  have hraw := toList_rawCertificate c
  rw [BattLockCert.toList_bytes, List.take_append, List.take_of_length_le (by rw [hfront]; decide),
    hfront] at hraw
  have htail := BattLockCert.toList_bytes (c.withTail beyond)
  simp only [BattLockCert.withTail, Vector.toList_append,
    toList_sub (show 0 + 62 ≤ 64 by decide), List.drop_zero] at htail
  have hlist : (Battery.rawCertificate c).toList ++ beyond.toList =
      (c.withTail beyond).bytes.toList := by
    rw [hraw, BattLockCert.withTail, htail, List.append_assoc]
    rfl
  have hbytes : Battery.rawCertificate c ++ beyond = (c.withTail beyond).bytes :=
    Vector.toList_inj.1 (Vector.toList_append.trans hlist)
  rw [certView, ← BattLockCert.ofBytes_bytes (c.withTail beyond), ← hbytes]

/-! ## The transfer -/

section
variable (C : Crypto) (rootCaPublicKey : Vector UInt8 65)
variable {v : Vehicle} {input : VehicleInput} {frame : CanFrame} {reass : BattLockReassembly}

theorem loop_certificate (hf : input.frame = some frame) (hid : frame.id = canIdCertificate) :
    v.loop C rootCaPublicKey input = v.certificateCase C rootCaPublicKey frame input := by
  have ha : canIdCertificate ≠ canIdBatteryStatus := by decide
  have hb : canIdCertificate ≠ Vehicle.canIdBatteryStatusB := by decide
  have hr : canIdCertificate ≠ canIdAuthRequest := by decide
  simp only [Vehicle.loop, hf, Vehicle.dispatch, hid, ha, hb, hr, and_false, ↓reduceIte]

theorem certificateCase_more (hlast : ¬ frame.IsLast) :
    v.certificateCase C rootCaPublicKey frame input =
      ({ v with certReass := (v.certReass.feed frame.data frame.len).1 }, []) := by
  have h := BattLockReassembly.feed_snd (r := v.certReass) (f := frame)
  rw [decide_eq_false hlast] at h
  unfold Vehicle.certificateCase
  dsimp only
  rw [h]
  rfl

theorem certificateCase_last (input : VehicleInput) (hlast : frame.IsLast)
    (hreass : (v.certReass.feed frame.data frame.len).1 = reass)
    (hlen : reass.len.toNat = battlockCertLen) :
    (v.certificateCase C rootCaPublicKey frame input).2 =
      (v.onCertificate C rootCaPublicKey reass input).2 := by
  have h := BattLockReassembly.feed_snd (r := v.certReass) (f := frame)
  rw [decide_eq_true hlast] at h
  unfold Vehicle.certificateCase
  dsimp only
  rw [h, hreass, if_pos hlen]
  rfl

theorem run_certificate {inputs : List VehicleInput} {frames : List CanFrame}
    (hinputs : inputs.map (·.frame) = frames.map some)
    (hframes : ∀ f ∈ frames, f.id = canIdCertificate ∧ ¬ f.IsLast) :
    (Vehicle.machine C rootCaPublicKey).run v inputs =
        { v with certReass := v.certReass.feedAll frames } ∧
      ((Vehicle.machine C rootCaPublicKey).log v inputs).flatMap Prod.snd = [] := by
  induction inputs generalizing v frames with
  | nil =>
    rw [List.map_nil, eq_comm, List.map_eq_nil_iff] at hinputs
    subst hinputs
    exact ⟨rfl, rfl⟩
  | cons input inputs ih =>
    cases frames with
    | nil => simp at hinputs
    | cons frame frames =>
      rw [List.map_cons, List.map_cons, List.cons.injEq] at hinputs
      obtain ⟨hid, hlast⟩ := hframes frame List.mem_cons_self
      have hstep : (Vehicle.machine C rootCaPublicKey).step v input =
          ({ v with certReass := (v.certReass.feed frame.data frame.len).1 }, []) :=
        (loop_certificate C rootCaPublicKey hinputs.1 hid).trans (certificateCase_more _ _ hlast)
      obtain ⟨hrun, hlog⟩ := ih (v := { v with
        certReass := (v.certReass.feed frame.data frame.len).1 }) hinputs.2
        (fun f hf => hframes f (List.mem_cons_of_mem _ hf))
      rw [Mealy.run_cons, Mealy.log_cons, List.flatMap_cons, hstep]
      exact ⟨hrun, hlog⟩

/-- What one complete certificate makes the vehicle do. -/
theorem checked_onCertificate (v : Vehicle) (reass : BattLockReassembly) (input : VehicleInput) :
    Event.checked (v.onCertificate C rootCaPublicKey reass input).2 =
        [certView (copyBytes v.certRaw 0 reass.buffer 0 battlockCertLen) input.beyond] ∧
      Event.copies (v.onCertificate C rootCaPublicKey reass input).2 =
        [⟨battlockCertLen, transportMax, battlockCertLen⟩] := by
  unfold Vehicle.onCertificate
  dsimp only
  split
  · simp [Event.checked, Event.copies]
  · simp [Event.checked, Event.copies]

/-- The events of a transfer: the battery is asked for its certificate, the vehicle receives the
frames it sends. -/
def transferEvents (c : BattLockCert) (b : Battery) (request : BatteryInput) (v : Vehicle)
    (inputs : List VehicleInput) : List Event :=
  (b.authRequestCase c request).2 ++
    ((Vehicle.machine C rootCaPublicKey).log v inputs).flatMap Prod.snd

/-- The vehicle checks the battery's certificate, and no copy leaves its buffers. -/
structure CertificateArrives (c : BattLockCert) (events : List Event) : Prop where
  fields : Event.checked events = [c]
  inBounds : ∀ copy ∈ Event.copies events, copy.InBounds

theorem events_authRequestCase (c : BattLockCert) (b : Battery) {request : BatteryInput}
    (haccept : ∀ f, request.accept f = true) :
    (b.authRequestCase c request).2 = [.assigned .helloReceived,
      .copied ⟨battlockCertLen, sizeofBattLockCert, sizeofBattLockCert⟩] ++
        (payloadFrames canIdCertificate (Battery.rawCertificate c).toList).map .sent := by
  have hall : request.accept = fun _ => true := funext haccept
  have hlen : (Battery.rawCertificate c).toList.length = battlockCertLen := Vector.length_toList
  have hsend := sendPayload_all canIdCertificate (p := (Battery.rawCertificate c).toList)
    (by rw [hlen]; decide)
  rw [hlen] at hsend
  unfold Battery.authRequestCase
  rw [hall, hsend]

theorem payloadFrames_certificate {p : Bytes} (hlen : p.length = battlockCertLen) :
    payloadFrames canIdCertificate p = (List.range 21).map (payloadFrame canIdCertificate p) ++
      [payloadFrame canIdCertificate p 21] := by
  have hcount : frameCount p.length = 21 + 1 := by rw [hlen]; rfl
  rw [payloadFrames, hcount, List.range_succ, List.map_append, List.map_singleton]

theorem frames_authRequestCase (c : BattLockCert) (b : Battery) {request : BatteryInput}
    (haccept : ∀ f, request.accept f = true) :
    Event.frames (b.authRequestCase c request).2 =
      (List.range 21).map (payloadFrame canIdCertificate (Battery.rawCertificate c).toList) ++
        [payloadFrame canIdCertificate (Battery.rawCertificate c).toList 21] := by
  rw [events_authRequestCase c b haccept, Event.frames_append, Event.frames_map_sent,
    payloadFrames_certificate Vector.length_toList]
  rfl

theorem events_receive_certificate (v : Vehicle) {p : Bytes} (hlen : p.length = battlockCertLen)
    {inputs : List VehicleInput} {last : VehicleInput}
    (hinputs : (inputs ++ [last]).map (·.frame) =
      ((List.range 21).map (payloadFrame canIdCertificate p) ++
        [payloadFrame canIdCertificate p 21]).map some) :
    ∃ (v' : Vehicle) (reass : BattLockReassembly),
      reass.buffer.toList.take battlockCertLen = p ∧
        ((Vehicle.machine C rootCaPublicKey).log v (inputs ++ [last])).flatMap Prod.snd =
          (v'.onCertificate C rootCaPublicKey reass last).2 := by
  have hp : p.length ≤ transportMax := by rw [hlen]; decide
  have hcount : frameCount p.length = 21 + 1 := by rw [hlen]; rfl
  have hholds := holds_payloadFrames canIdCertificate hp v.certReass
  rw [payloadFrames_certificate hlen, BattLockReassembly.feedAll_concat] at hholds
  rw [List.map_append, List.map_append] at hinputs
  obtain ⟨hmore, hlast⟩ := List.append_inj' hinputs rfl
  simp only [List.map_cons, List.map_nil, List.cons.injEq, and_true] at hlast
  -- the last frame ends the message, those before it do not
  obtain ⟨hrun, hlog⟩ := run_certificate C rootCaPublicKey (v := v) hmore (fun f hf => by
    obtain ⟨i, hi, rfl⟩ := List.mem_map.1 hf
    have hlt := List.mem_range.1 hi
    refine ⟨id_payloadFrame, fun h => ?_⟩
    have hend := (isLast_payloadFrame (by omega)).1 h
    omega)
  refine ⟨(Vehicle.machine C rootCaPublicKey).run v inputs, _,
    by rw [← hlen]; exact hholds.buffer_eq, ?_⟩
  rw [Mealy.log_concat, List.flatMap_append, hlog, List.flatMap_singleton, List.nil_append]
  have hcase := certificateCase_last C rootCaPublicKey last
    (v := (Vehicle.machine C rootCaPublicKey).run v inputs)
    ((isLast_payloadFrame (by decide)).2 hcount.symm) (by rw [hrun]) (hholds.len_eq.trans hlen)
  exact (congrArg Prod.snd (loop_certificate C rootCaPublicKey hlast id_payloadFrame)).trans
    hcase

/-- **What a transfer does**, for every certificate and every state of the two nodes. -/
theorem certificate_transfer (c : BattLockCert) (b : Battery) (v : Vehicle)
    {request : BatteryInput} {inputs : List VehicleInput} {last : VehicleInput}
    (haccept : ∀ f, request.accept f = true)
    (hinputs : (inputs ++ [last]).map (·.frame) =
      (Event.frames (b.authRequestCase c request).2).map some) :
    Event.checked (transferEvents C rootCaPublicKey c b request v (inputs ++ [last])) =
        [c.withTail last.beyond] ∧
      Event.copies (transferEvents C rootCaPublicKey c b request v (inputs ++ [last])) =
        [⟨battlockCertLen, sizeofBattLockCert, sizeofBattLockCert⟩,
          ⟨battlockCertLen, transportMax, battlockCertLen⟩] := by
  have hevents := events_authRequestCase c b haccept
  rw [frames_authRequestCase c b haccept] at hinputs
  obtain ⟨v', reass, hbuffer, hlog⟩ :=
    events_receive_certificate C rootCaPublicKey v Vector.length_toList hinputs
  obtain ⟨hchecked, hcopies⟩ := checked_onCertificate C rootCaPublicKey v' reass last
  have hraw : copyBytes v'.certRaw 0 reass.buffer 0 battlockCertLen = Battery.rawCertificate c := by
    rw [copyBytes_all (by decide), ← Vector.toList_inj, toList_sub (by decide), List.drop_zero,
      hbuffer]
  rw [transferEvents, hlog, hevents, Event.checked_append, Event.copies_append, hchecked, hcopies,
    hraw, certView_rawCertificate]
  simp [Event.checked, Event.copies]

variable {C} {rootCaPublicKey}

/-- **No transfer is right**, for any certificate: the first copy writes behind its destination.
What the vehicle checks is the certificate only where the memory behind `cert_raw` happens to hold
the last two bytes of its signature. -/
theorem not_certificateArrives (c : BattLockCert) (b : Battery) (v : Vehicle)
    {request : BatteryInput} {inputs : List VehicleInput} {last : VehicleInput}
    (haccept : ∀ f, request.accept f = true)
    (hinputs : (inputs ++ [last]).map (·.frame) =
      (Event.frames (b.authRequestCase c request).2).map some) :
    ¬ CertificateArrives c (transferEvents C rootCaPublicKey c b request v (inputs ++ [last])) ∧
      (Event.checked (transferEvents C rootCaPublicKey c b request v (inputs ++ [last])) = [c] ↔
        last.beyond = sub c.signature 62 2) := by
  obtain ⟨hchecked, hcopies⟩ := certificate_transfer C rootCaPublicKey c b v haccept hinputs
  constructor
  · intro h
    have hfirst := h.inBounds _ (by rw [hcopies]; exact List.mem_cons_self)
    exact absurd hfirst.1 (by decide)
  · rw [hchecked, ← BattLockCert.withTail_eq_iff, List.cons.injEq, and_iff_left rfl]

end

/-! ## A transfer -/

/-- The certificate the battery sketch is written with. -/
def zeroCert : BattLockCert := .ofBytes (Vector.replicate _ 0)

def certificateRequest : BatteryInput where
  frame := some (.ofBytes canIdAuthRequest [])
  accept _ := true
  ecdsaSign _ := none

/-- The vehicle receives a frame; what is in memory behind `cert_raw` is 1, 2. -/
def receiving (f : CanFrame) : VehicleInput where
  frame := some f
  millis _ := 0
  accept _ := true
  beyond := #v[1, 2]

/-- The frames of the certificate. -/
def zeroFrame (i : Nat) : CanFrame :=
  payloadFrame canIdCertificate (Battery.rawCertificate zeroCert).toList i

/-- The transfer of that certificate. -/
def zeroTransfer : List Event :=
  transferEvents .refusing (Vector.replicate 65 0) zeroCert {} certificateRequest {}
    ((List.range 21).map (fun i => receiving (zeroFrame i)) ++ [receiving (zeroFrame 21)])

theorem not_certificateArrives_zero :
    ¬ CertificateArrives zeroCert zeroTransfer ∧ (Event.checked zeroTransfer = [zeroCert] ↔
      (#v[1, 2] : Vector UInt8 2) = sub zeroCert.signature 62 2) := by
  have haccept : ∀ f, certificateRequest.accept f = true := fun _ => rfl
  refine not_certificateArrives zeroCert {} {} haccept ?_
  rw [frames_authRequestCase zeroCert {} haccept]
  simp [receiving, zeroFrame]

/-- The first copy of the transfer leaves its destination. -/
theorem zeroTransfer_out_of_bounds : ¬ CertificateArrives zeroCert zeroTransfer := by
  intro h
  have hmem : ⟨battlockCertLen, sizeofBattLockCert, sizeofBattLockCert⟩ ∈
      Event.copies zeroTransfer := by
    rw [zeroTransfer, transferEvents, Event.copies_append, List.mem_append]
    exact .inl (List.mem_filterMap.2 ⟨.copied _, List.mem_cons_of_mem _ List.mem_cons_self, rfl⟩)
  exact absurd (h.inBounds _ hmem).1 (by decide)

end BattLock.Hardware
