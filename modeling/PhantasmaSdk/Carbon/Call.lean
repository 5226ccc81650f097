import PhantasmaSdk.Carbon.Payload

/-!
# Contract calls

A call names a method and carries its arguments, either as bytes or as a list of
sections, each of them bytes or a register offset. The two forms share one length
field: a negative one counts sections. The same goes for a section, whose
negative length is a register offset.

Not every call is in the form its bytes are read back in: a section with a
register offset writes no arguments, and a call with sections none of its own.
Those that are, `Normal`, are read back, and are what is read.
-/

namespace PhantasmaSdk

open Codec Codec.Decoder CarbonWriter CarbonReader

/-! ## Sections -/

structure CallArgSection where
  registerOffset : Int32
  args : Bytes
  deriving DecidableEq, Repr

namespace CallArgSection

instance : CarbonSerializable CallArgSection where
  writeCarbon v :=
    if v.registerOffset < 0 then pure (write4 v.registerOffset)
    else do
      let len ← ensureU32Len v.args.length
      pure (write4 len.toInt32 ++ v.args)
  readCarbon := do
    let value ← read4
    if value < 0 then pure { registerOffset := value, args := [] }
    else do
      let args ← read value.toInt.toNat
      pure { registerOffset := 0, args }

/-- A section is either a register offset or bytes. -/
def Normal (v : CallArgSection) : Prop :=
  v.registerOffset < 0 ∧ v.args = [] ∨ v.registerOffset = 0 ∧ v.args.length < 2 ^ 31

end CallArgSection

structure MsgCallArgSections where
  sections : List CallArgSection
  deriving DecidableEq, Repr

namespace MsgCallArgSections

def hasSections (v : MsgCallArgSections) : Bool := !v.sections.isEmpty

def readWithCount (countNegative : Int32) : Reader MsgCallArgSections :=
  if 0 ≤ countNegative then refuse "arg sections count must be negative"
  -- The negation of the least `i32` is not one.
  else if countNegative = Int32.minValue then fail (.panic .overflow)
  else do
    let count := (-countNegative).toInt.toNat
    reserve count
    let sections ← (readCarbon : Reader CallArgSection).replicate count
    pure { sections }

instance : CarbonSerializable MsgCallArgSections where
  writeCarbon v :=
    if v.sections.isEmpty then serialization "arg sections are empty"
    else do
      -- `as i32` drops what does not fit.
      let len := (UInt32.ofNat v.sections.length).toInt32
      if len = Int32.minValue then overflow
      else do
        let body ← v.sections.mapM writeCarbon
        pure (write4 (-len) ++ body.flatten)
  readCarbon := do
    let count ← read4
    readWithCount count

/-- There are sections, fewer than `2 ^ 31` of them, each in normal form. -/
structure Normal (v : MsgCallArgSections) : Prop where
  nonempty : v.sections ≠ []
  length_lt : v.sections.length < 2 ^ 31
  normal : ∀ s ∈ v.sections, s.Normal

end MsgCallArgSections

/-! ## Calls -/

structure TxMsgCall where
  moduleId : UInt32
  methodId : UInt32
  args : Bytes
  sections : Option MsgCallArgSections
  deriving DecidableEq, Repr

namespace TxMsgCall

/-- What follows the ids: the sections, if there are any, or the arguments. -/
def writeArgs (v : TxMsgCall) : Result Bytes :=
  let args : Result Bytes := do
    let len ← ensureU32Len v.args.length
    pure (write4 len.toInt32 ++ v.args)
  match v.sections with
  | some sections => if sections.hasSections then writeCarbon sections else args
  | none => args

instance : CarbonSerializable TxMsgCall where
  writeCarbon v := do
    let args ← v.writeArgs
    pure (write4u v.moduleId ++ write4u v.methodId ++ args)
  readCarbon := do
    let moduleId ← read4u
    let methodId ← read4u
    let len ← read4
    if 0 ≤ len then do
      let args ← read len.toInt.toNat
      pure { moduleId, methodId, args, sections := none }
    else do
      let sections ← MsgCallArgSections.readWithCount len
      pure { moduleId, methodId, args := [], sections := some sections }

/-- A call has either bytes for arguments or sections. -/
def Normal (v : TxMsgCall) : Prop :=
  match v.sections with
  | none => v.args.length < 2 ^ 31
  | some sections => v.args = [] ∧ sections.Normal

end TxMsgCall

structure TxMsgCallMulti where
  calls : List TxMsgCall
  deriving DecidableEq, Repr

instance : CarbonSerializable TxMsgCallMulti where
  writeCarbon v := writeCarbonArray v.calls
  readCarbon := do
    let calls ← readCarbonArray TxMsgCall
    pure { calls }

/-! ## Counts -/

theorem neg_lt_zero_iff {c : Int32} : ¬0 ≤ c ↔ c < 0 := by
  rw [Int32.le_iff_toInt_le, Int32.lt_iff_toInt_lt]
  exact not_le

/-- The count of a list of sections, negated, as written. -/
def negCount (n : ℕ) : Int32 := -(UInt32.ofNat n).toInt32

theorem toInt_negCount {n : ℕ} (h : n < 2 ^ 31) : (negCount n).toInt = -n := by
  rw [negCount, Int32.toInt_neg, toInt_length h]
  exact bmod_eq_self (by push_cast; omega) (by push_cast; omega)

theorem length_ne_minValue {n : ℕ} (h : n < 2 ^ 31) :
    (UInt32.ofNat n).toInt32 ≠ Int32.minValue := fun heq => by
  have hint := toInt_length h
  rw [heq] at hint
  have hmin : Int32.minValue.toInt = -(2 ^ 31) := by decide
  omega

/-- What is read of a count that is not the least `i32`. -/
theorem negCount_toNat {c : Int32} (hneg : c < 0) (hmin : c ≠ Int32.minValue) :
    (-c).toInt.toNat < 2 ^ 31 ∧ negCount (-c).toInt.toNat = c ∧
      ((-c).toInt.toNat : ℤ) = -c.toInt := by
  have hc : c.toInt < 0 := by
    rw [Int32.lt_iff_toInt_lt] at hneg
    exact hneg
  have hle := c.le_toInt
  have hne : c.toInt ≠ -(2 ^ 31) := fun h => hmin (Int32.toInt_inj.1 (h.trans (by decide)))
  have hneg' : (-c).toInt = -c.toInt := by
    rw [Int32.toInt_neg]
    exact bmod_eq_self (by push_cast; omega) (by push_cast; omega)
  have hlt : (-c).toInt.toNat < 2 ^ 31 := by omega
  refine ⟨hlt, ?_, by omega⟩
  rw [← Int32.toInt_inj, toInt_negCount hlt]
  omega

/-! ## Reading back -/

namespace CallArgSection

theorem reads_readCarbon {v : CallArgSection} (hv : v.Normal) {enc : Bytes}
    (hw : writeCarbon v = .ok enc) : (readCarbon : Reader CallArgSection).Reads enc v := by
  obtain ⟨registerOffset, args⟩ := v
  change (if registerOffset < 0 then _ else _) = _ at hw
  rcases hv with ⟨hneg, rfl⟩ | ⟨rfl, hlen⟩
  · rw [if_pos hneg] at hw
    obtain rfl := Except.ok.inj hw
    refine Reads.congr ((reads_read4 registerOffset).bind (t := []) ?_)
      (List.append_nil _).symm rfl
    rw [if_pos hneg]
    exact reads_pure _
  · simp only at hlen
    rw [if_neg (by decide), ensureU32Len_of_lt (by simpa using by omega), ok_bind] at hw
    obtain rfl := Except.ok.inj hw
    refine (reads_read4 _).bind ?_
    rw [if_neg (by rw [Int32.lt_iff_toInt_lt, toInt_length hlen]; simp), toInt_length hlen,
      Int.toNat_natCast]
    exact (reads_read rfl).map _

theorem length_le_of_writeCarbon {v : CallArgSection} {enc : Bytes}
    (hw : writeCarbon v = .ok enc) : 4 ≤ enc.length := by
  change (if v.registerOffset < 0 then _ else _) = _ at hw
  split at hw
  next => simp [← Except.ok.inj hw, write4]
  next =>
    obtain ⟨len, -, hw⟩ := bind_eq_ok.1 hw
    simp [← Except.ok.inj hw, write4]

theorem yields_readCarbon : (readCarbon : Reader CallArgSection).Yields fun v used =>
    v.Normal ∧ writeCarbon v = .ok used := by
  change Decoder.Yields (read4 >>= _) _
  refine yields_read4.bind fun value used h => ?_
  subst h
  split
  next hneg =>
    refine yields_pure ⟨.inl ⟨hneg, rfl⟩, ?_⟩
    rw [List.append_nil]
    exact if_pos hneg
  next hneg =>
    have hnonneg : 0 ≤ value.toInt := by
      rw [Int32.lt_iff_toInt_lt] at hneg
      exact not_lt.1 hneg
    have hlt := value.toInt_lt
    refine (yields_read _).bind fun args used' h => yields_pure ?_
    obtain ⟨rfl, hl⟩ := h
    have hlen : (UInt32.ofNat args.length).toInt32 = value := by
      rw [← Int32.toInt_inj, toInt_length (by omega), hl, Int.toNat_of_nonneg hnonneg]
    refine ⟨.inr ⟨rfl, by simp only; omega⟩, ?_⟩
    refine (if_neg (show ¬(0 : Int32) < 0 by decide)).trans ?_
    rw [ensureU32Len_of_lt (by simp only; omega), ok_bind, hlen, List.append_nil]
    rfl

theorem lawful : Lawful (writeCarbon : CallArgSection → Result Bytes) readCarbon Normal
    (fun _ => True) 4 where
  reads _ _ hv hw := reads_readCarbon hv hw
  yields := yields_readCarbon.mono fun _ used h => ⟨h.1, used, h.2, fun _ => rfl⟩
  length_le _ _ hw := length_le_of_writeCarbon hw

theorem safe_readCarbon {input : Bytes} : (readCarbon : Reader CallArgSection).Safe input :=
  safe_read4.bind fun value {mid} => by
    split
    next => exact safeOn_pure _ _
    next => exact (safe_read _).bind fun _ => safeOn_pure _ _

end CallArgSection

namespace MsgCallArgSections

theorem writeCarbon_of_normal {v : MsgCallArgSections} (hv : v.Normal) :
    (writeCarbon v : Result Bytes) =
      (do let body ← v.sections.mapM writeCarbon
          pure (write4 (negCount v.sections.length) ++ body.flatten)) := by
  refine (if_neg (by simpa using hv.nonempty)).trans ?_
  simp only
  exact if_neg (length_ne_minValue hv.length_lt)

/-- The sections, and the length they share with the arguments of a call. -/
theorem reads_readWithCount {v : MsgCallArgSections} (hv : v.Normal) {enc : Bytes}
    (hw : writeCarbon v = .ok enc) : ∃ body, enc = write4 (negCount v.sections.length) ++ body ∧
      (readWithCount (negCount v.sections.length)).Reads body v := by
  rw [writeCarbon_of_normal hv] at hw
  obtain ⟨encs, hencs, hw⟩ := bind_eq_ok.1 hw
  obtain rfl := Except.ok.inj hw
  refine ⟨encs.flatten, rfl, ?_⟩
  have hint := toInt_negCount hv.length_lt
  have hpos := List.length_pos_iff.2 hv.nonempty
  have hneg : negCount v.sections.length < 0 := by
    rw [Int32.lt_iff_toInt_lt, hint]
    exact neg_lt_zero.2 (by exact_mod_cast hpos)
  have hmin : negCount v.sections.length ≠ Int32.minValue := fun h => by
    rw [h] at hint
    have hlt := hv.length_lt
    have : Int32.minValue.toInt = -(2 ^ 31) := by decide
    omega
  have hcount : (-negCount v.sections.length).toInt.toNat = v.sections.length := by
    have := (negCount_toNat hneg hmin).2.2
    omega
  rw [readWithCount, if_neg (neg_lt_zero_iff.2 hneg), if_neg hmin]
  simp only [hcount]
  refine (reads_reserve _).bind_nil (Reads.map (reads_replicate ?_) MsgCallArgSections.mk)
  exact (forall₂_imp_mem (mapM_eq_ok.1 hencs) fun s hs enc he =>
    CallArgSection.reads_readCarbon (hv.normal s hs) he).flip

theorem yields_readWithCount {c : Int32} (hneg : c < 0) :
    (readWithCount c).Yields fun v used =>
      v.Normal ∧ (writeCarbon v : Result Bytes) = .ok (write4 c ++ used) := by
  rw [readWithCount, if_neg (neg_lt_zero_iff.2 hneg)]
  split
  next => exact yields_fail _ _
  next hmin =>
  obtain ⟨hlt, hcount, hval⟩ := negCount_toNat hneg hmin
  simp only
  refine (yields_reserve _).bind fun _ used h => ?_
  subst h
  refine (yields_replicate CallArgSection.yields_readCarbon _).bind fun sections used h =>
    yields_pure ?_
  obtain ⟨hlen, encs, rfl, hall⟩ := h
  have hne : sections ≠ [] := by
    rw [← List.length_pos_iff, hlen]
    rw [Int32.lt_iff_toInt_lt] at hneg
    have : c.toInt < 0 := hneg
    omega
  have hnormal : (⟨sections⟩ : MsgCallArgSections).Normal := ⟨hne, hlen ▸ hlt, fun s hs =>
    let ⟨_, _, h, _⟩ := exists_of_forall₂_mem hall hs
    h⟩
  refine ⟨hnormal, ?_⟩
  rw [writeCarbon_of_normal hnormal, mapM_eq_ok.2 (hall.imp fun _ _ h => h.2), ok_bind]
  simp only [hlen, hcount, List.nil_append, List.append_nil]
  rfl

end MsgCallArgSections

namespace TxMsgCall

theorem reads_readCarbon {v : TxMsgCall} (hv : v.Normal) {enc : Bytes}
    (hw : writeCarbon v = .ok enc) : (readCarbon : Reader TxMsgCall).Reads enc v := by
  obtain ⟨args, hargs, hw⟩ := bind_eq_ok.1 hw
  obtain rfl := Except.ok.inj hw
  obtain ⟨moduleId, methodId, bytes, sections⟩ := v
  refine Reads.congr ((reads_read4u moduleId).bind <| (reads_read4u methodId).bind
    (t := args) ?_) (List.append_assoc _ _ _) rfl
  cases sections with
  | none =>
    have hlen : bytes.length < 2 ^ 31 := hv
    rw [writeArgs, ensureU32Len_of_lt (by simp only; omega), ok_bind] at hargs
    obtain rfl := Except.ok.inj hargs
    refine (reads_read4 _).bind ?_
    rw [if_pos (by rw [Int32.le_iff_toInt_le, toInt_length hlen]; simp), toInt_length hlen,
      Int.toNat_natCast]
    exact (reads_read rfl).map _
  | some sections =>
    obtain ⟨rfl, hsections⟩ : bytes = [] ∧ sections.Normal := hv
    have hhas : sections.hasSections = true := by
      simpa [MsgCallArgSections.hasSections] using hsections.nonempty
    simp only [writeArgs, hhas, if_true] at hargs
    obtain ⟨body, rfl, hreads⟩ := MsgCallArgSections.reads_readWithCount hsections hargs
    refine (reads_read4 _).bind ?_
    have hint := toInt_negCount hsections.length_lt
    have hpos := List.length_pos_iff.2 hsections.nonempty
    rw [if_neg (by rw [Int32.le_iff_toInt_le, hint, Int32.toInt_zero]; omega)]
    exact hreads.map _

theorem yields_readCarbon : (readCarbon : Reader TxMsgCall).Yields fun v used =>
    v.Normal ∧ writeCarbon v = .ok used := by
  change Decoder.Yields (read4u >>= _) _
  refine yields_read4u.bind fun moduleId used h => yields_read4u.bind fun methodId used' h' =>
    yields_read4.bind fun len used'' h'' => ?_
  subst h h' h''
  split
  next hnonneg =>
    have hnonneg' : 0 ≤ len.toInt := by
      rw [Int32.le_iff_toInt_le] at hnonneg
      exact hnonneg
    have hlt := len.toInt_lt
    refine (yields_read _).bind fun args used h => yields_pure ?_
    obtain ⟨rfl, hl⟩ := h
    have hlen : (UInt32.ofNat args.length).toInt32 = len := by
      rw [← Int32.toInt_inj, toInt_length (by omega), hl, Int.toNat_of_nonneg hnonneg']
    refine ⟨show args.length < 2 ^ 31 by omega, bind_eq_ok.2 ⟨write4 len ++ args, ?_, ?_⟩⟩
    · rw [writeArgs, ensureU32Len_of_lt (by simp only; omega), ok_bind, hlen]
      rfl
    · simp
      rfl
  next hneg =>
    refine (MsgCallArgSections.yields_readWithCount (neg_lt_zero_iff.1 hneg)).bind
      fun sections used h => yields_pure ?_
    obtain ⟨hnormal, hw⟩ := h
    have hhas : sections.hasSections = true := by
      simpa [MsgCallArgSections.hasSections] using hnormal.nonempty
    refine ⟨⟨rfl, hnormal⟩, bind_eq_ok.2 ⟨write4 len ++ used, ?_, ?_⟩⟩
    · simp only [writeArgs, hhas, if_true]
      exact hw
    · simp
      rfl

theorem lawful : Lawful (writeCarbon : TxMsgCall → Result Bytes) readCarbon Normal
    (fun _ => True) 8 where
  reads _ _ hv hw := reads_readCarbon hv hw
  yields := yields_readCarbon.mono fun _ used h => ⟨h.1, used, h.2, fun _ => rfl⟩
  length_le v enc hw := by
    obtain ⟨args, -, hw⟩ := bind_eq_ok.1 hw
    rw [← Except.ok.inj hw, List.length_append, List.length_append, write4u, write4u, length_toLE,
      length_toLE]
    omega

end TxMsgCall

theorem TxMsgCallMulti.lawful : Lawful (writeCarbon : TxMsgCallMulti → Result Bytes) readCarbon
    (fun v => v.calls.length < 2 ^ 31 ∧ ∀ c ∈ v.calls, c.Normal) (fun _ => True) 4 :=
  (lawful_writeCarbonArray TxMsgCall.lawful (by norm_num)).iso TxMsgCallMulti.mk
    TxMsgCallMulti.calls (fun _ => rfl) (by simp [readCarbon]) (by simp) (by simp)

end PhantasmaSdk
