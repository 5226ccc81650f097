import PhantasmaSdk.Fees.Plan

/-!
# What the message says and what the caller says

A plan is read out of two sources: the operations and their data are the message's,
the facts of the chain's state, the returned assets and the budget of scripts are
the caller's. `describe_eq_ok_iff` separates the two: describing a message with some
options is describing it with none (`operations`), then stating the options'
facts of each part and giving the returned assets to the first burn.

Facts are ordered by what they cost (`Facts.Cheaper`): two plans of one message are
compared part by part, and by the facts stated of each.
-/

namespace PhantasmaSdk

/-! ## Facts -/

/-- The facts of the chain's state. -/
structure Facts where
  recipientHoldsToken : Bool
  tokenBurnedBefore : Bool
  supplyRowExists : Bool
  bigFungible : Option Bool
  romHasMetaId : Option Bool
  seriesHasMetaId : Option Bool
  duplicatedSeries : Option Bool
  deriving DecidableEq, Repr

namespace Facts

/-- Unstated, or at the costlier reading. -/
def costlier : Facts := ⟨false, false, false, none, none, none, none⟩

/-- Each fact of the first reads cheaper than that of the second, or alike. -/
structure Cheaper (f g : Facts) : Prop where
  recipientHoldsToken : g.recipientHoldsToken → f.recipientHoldsToken
  tokenBurnedBefore : g.tokenBurnedBefore → f.tokenBurnedBefore
  supplyRowExists : g.supplyRowExists → f.supplyRowExists
  bigFungible : f.bigFungible.getD true → g.bigFungible.getD true
  romHasMetaId : f.romHasMetaId.getD true → g.romHasMetaId.getD true
  seriesHasMetaId : f.seriesHasMetaId.getD true → g.seriesHasMetaId.getD true
  duplicatedSeries : f.duplicatedSeries.getD true → g.duplicatedSeries.getD true

theorem cheaper_costlier (f : Facts) : Cheaper f costlier := by
  constructor <;> simp [costlier]

/-- Facts that are left open in the second, or at their costlier reading, may be any
    in the first; the others are the same. -/
structure Restates (f g : Facts) : Prop where
  recipientHoldsToken : g.recipientHoldsToken → f.recipientHoldsToken
  tokenBurnedBefore : g.tokenBurnedBefore → f.tokenBurnedBefore
  supplyRowExists : g.supplyRowExists → f.supplyRowExists
  bigFungible : g.bigFungible = some false → f.bigFungible = some false
  romHasMetaId : ∀ b, g.romHasMetaId = some b → f.romHasMetaId = some b
  seriesHasMetaId : ∀ b, g.seriesHasMetaId = some b → f.seriesHasMetaId = some b
  duplicatedSeries : ∀ b, g.duplicatedSeries = some b → f.duplicatedSeries = some b

/-- The facts a plan is priced with a second time. -/
def cheapest (f : Facts) : Facts :=
  ⟨true, true, true, some false, some (f.romHasMetaId.getD false),
    some (f.seriesHasMetaId.getD false), some (f.duplicatedSeries.getD false)⟩

theorem getD_imp_of_restates {a b : Option Bool} (h : ∀ c, b = some c → a = some c) :
    a.getD true → b.getD true := by
  cases b with
  | none => simp
  | some c => simp [h c rfl]

theorem getD_imp_of_restates' {a b : Option Bool} (h : ∀ c, b = some c → a = some c) :
    (some (b.getD false)).getD true → a.getD true := by
  cases b with
  | none => simp
  | some c => simp [h c rfl]

/-- A restatement costs no more than what it restates, and no less than the cheapest
    reading. -/
theorem Restates.cheaper {f g : Facts} (h : Restates f g) : Cheaper f g where
  recipientHoldsToken := h.recipientHoldsToken
  tokenBurnedBefore := h.tokenBurnedBefore
  supplyRowExists := h.supplyRowExists
  bigFungible := by
    have := h.bigFungible
    rcases hg : g.bigFungible with _ | _ | _ <;> simp_all
  romHasMetaId := getD_imp_of_restates h.romHasMetaId
  seriesHasMetaId := getD_imp_of_restates h.seriesHasMetaId
  duplicatedSeries := getD_imp_of_restates h.duplicatedSeries

theorem Restates.cheapest_cheaper {f g : Facts} (h : Restates f g) : Cheaper g.cheapest f where
  recipientHoldsToken := fun _ => rfl
  tokenBurnedBefore := fun _ => rfl
  supplyRowExists := fun _ => rfl
  bigFungible := by simp [cheapest]
  romHasMetaId := getD_imp_of_restates' h.romHasMetaId
  seriesHasMetaId := getD_imp_of_restates' h.seriesHasMetaId
  duplicatedSeries := getD_imp_of_restates' h.duplicatedSeries

end Facts

namespace FeePlanOptions

def facts (o : FeePlanOptions) : Facts :=
  ⟨o.recipientHoldsToken, o.tokenBurnedBefore, o.supplyRowExists, o.bigFungible, o.romHasMetaId,
    o.seriesHasMetaId, o.duplicatedSeries⟩

end FeePlanOptions

/-! ## Parts -/

namespace NativeFeePart

/-- The part with the facts and the budget of the options, where its kind reads them. -/
def stated (o : FeePlanOptions) (part : NativeFeePart) : NativeFeePart :=
  match part.kind with
  | .createToken | .registerName => part
  | .script => scriptPart o
  | .createTokenSeries =>
    { part with params := { part.params with seriesHasMetaId := o.seriesHasMetaId } }
  | .mintPhantasmaNonFungible =>
    { part with params := { part.params with
        recipientHoldsToken := o.recipientHoldsToken
        bigFungible := o.bigFungible
        tokenBurnedBefore := o.tokenBurnedBefore
        supplyRowExists := o.supplyRowExists
        romHasMetaId := o.romHasMetaId
        duplicatedSeries := o.duplicatedSeries } }
  | _ =>
    { part with params := { part.params with
        recipientHoldsToken := o.recipientHoldsToken
        bigFungible := o.bigFungible
        tokenBurnedBefore := o.tokenBurnedBefore
        supplyRowExists := o.supplyRowExists
        romHasMetaId := o.romHasMetaId } }

@[simp] theorem kind_stated (o : FeePlanOptions) (part : NativeFeePart) :
    (part.stated o).kind = part.kind := by
  obtain ⟨kind, params⟩ := part
  cases kind <;> rfl

/-- The part with the assets it returns. -/
def returning (infusions : List InfusedAsset) (part : NativeFeePart) : NativeFeePart :=
  { part with params := { part.params with infusions := some infusions } }

@[simp] theorem kind_returning (infusions : List InfusedAsset) (part : NativeFeePart) :
    (part.returning infusions).kind = part.kind := rfl

/-- The part as the options have it, the burns returning the assets that are left. -/
def attach (o : FeePlanOptions) (infusions : Option (List InfusedAsset)) (part : NativeFeePart) :
    Result NativeFeePart :=
  if part.kind = .burnNonFungible then
    match infusions with
    | none => describeBurn 0 0 {} none
    | some infusions => pure ((part.stated o).returning infusions)
  else pure (part.stated o)

end NativeFeePart

/-- The parts as the options have them. What the NFTs hold is returned by the first burn
    of them. -/
def attachAll (o : FeePlanOptions) :
    Option (List InfusedAsset) → List NativeFeePart → Result (List NativeFeePart)
  | _, [] => pure []
  | infusions, part :: parts => do
    let part' ← part.attach o infusions
    let infusions := if part.kind = .burnNonFungible then some [] else infusions
    let parts' ← attachAll o infusions parts
    pure (part' :: parts')

theorem kind_of_attach {o : FeePlanOptions} {infusions : Option (List InfusedAsset)}
    {part part' : NativeFeePart} (h : part.attach o infusions = .ok part') :
    part'.kind = part.kind := by
  unfold NativeFeePart.attach at h
  rcases ite_eq_iff.1 h with ⟨-, h⟩ | ⟨-, h⟩
  · cases infusions with
    | none => cases h
    | some infusions => rw [← Except.ok.inj h, NativeFeePart.returning, NativeFeePart.kind_stated]
  · rw [← Except.ok.inj h, NativeFeePart.kind_stated]

theorem kinds_of_attachAll {o : FeePlanOptions} {infusions : Option (List InfusedAsset)}
    {parts parts' : List NativeFeePart} (h : attachAll o infusions parts = .ok parts') :
    parts'.map NativeFeePart.kind = parts.map NativeFeePart.kind := by
  induction parts generalizing infusions parts' with
  | nil => rw [← Except.ok.inj h]
  | cons part parts ih =>
    obtain ⟨part', hpart, h⟩ := bind_eq_ok.1 h
    obtain ⟨rest, hrest, h⟩ := bind_eq_ok.1 h
    rw [← Except.ok.inj h, List.map_cons, List.map_cons, kind_of_attach hpart, ih hrest]

/-- The options that say nothing. -/
def noFacts : FeePlanOptions := { infusions := some [] }

theorem describeBurn_eq (o : FeePlanOptions) (infusions : Option (List InfusedAsset))
    (tokenId : UInt64) (count : UInt32) : describeBurn tokenId count o.state infusions =
      (do let part ← describeBurn tokenId count noFacts.state (some [])
          part.attach o infusions) := by
  cases infusions <;> rfl

/-- Two choices by the same condition, one of them followed by something. -/
theorem ite_eq_ite_bind {α β : Type} {c : Prop} [Decidable c] {a b : Result β} {a' b' : Result α}
    {f : α → Result β} (ha : c → a = a' >>= f) (hb : ¬c → b = b' >>= f) :
    (if c then a else b) = (if c then a' else b') >>= f := by
  by_cases hc : c
  · rw [if_pos hc, if_pos hc, ha hc]
  · rw [if_neg hc, if_neg hc, hb hc]

/-- Describing a call with some options is describing it with none, then stating
    them. -/
theorem describeCall_eq (o : FeePlanOptions) (infusions : Option (List InfusedAsset))
    (call : TxMsgCall) : describeCall call o.state o infusions =
      (do let part ← describeCall call noFacts.state noFacts (some [])
          part.attach o infusions) := by
  rw [describeCall, describeCall]
  refine ite_eq_ite_bind (fun _ => rfl) fun _ => ite_eq_ite_bind (fun _ => ?_) fun _ => ?_
  · refine ite_eq_ite_bind (fun _ => ?_) fun _ => ite_eq_ite_bind (fun _ => ?_) fun _ =>
      ite_eq_ite_bind (fun _ => ?_) fun _ => ite_eq_ite_bind (fun _ => ?_) fun _ =>
      ite_eq_ite_bind (fun _ => ?_) fun _ => ite_eq_ite_bind (fun _ => ?_) fun _ =>
      ite_eq_ite_bind (fun _ => ?_) fun _ => ite_eq_ite_bind (fun _ => ?_) fun _ => rfl
    case _ => simp only [bind_assoc, pure_bind]; rfl
    case _ => simp only [bind_assoc, pure_bind]; rfl
    case _ => simp only [bind_assoc, pure_bind]; rfl
    case _ => simp only [bind_assoc, pure_bind]; rfl
    case _ =>
      rw [bind_assoc]
      refine congrArg _ (funext fun args => ?_)
      rw [bind_assoc]
      exact congrArg _ (funext fun count => describeBurn_eq o infusions args.tokenId count)
    case _ => simp only [bind_assoc, pure_bind]; rfl
    case _ => simp only [bind_assoc, pure_bind]; rfl
    case _ => simp only [bind_assoc, pure_bind]; rfl
  · exact ite_eq_ite_bind (fun _ => by simp only [bind_assoc, pure_bind]; rfl) fun _ => rfl

/-- The calls of a batch perform an operation each. -/
theorem describeCalls_noFacts (calls : List TxMsgCall) :
    describeCalls noFacts.state noFacts (some []) calls =
      calls.mapM fun call => describeCall call noFacts.state noFacts (some []) := by
  induction calls with
  | nil => rfl
  | cons call calls ih =>
    rw [List.mapM_cons, ← ih, describeCalls]
    simp only [ite_self]

theorem forall₂_of_describeCalls {calls : List TxMsgCall} {parts : List NativeFeePart}
    (h : describeCalls noFacts.state noFacts (some []) calls = .ok parts) :
    List.Forall₂ (fun call part =>
      describeCall call noFacts.state noFacts (some []) = .ok part) calls parts :=
  mapM_eq_ok.1 (describeCalls_noFacts calls ▸ h)

/-- The calls of a batch, once without the options and once with them. -/
theorem describeCalls_eq_ok {o : FeePlanOptions} {calls : List TxMsgCall}
    {infusions : Option (List InfusedAsset)} {parts : List NativeFeePart} :
    describeCalls o.state o infusions calls = .ok parts ↔
      ∃ parts₀, describeCalls noFacts.state noFacts (some []) calls = .ok parts₀ ∧
        attachAll o infusions parts₀ = .ok parts := by
  induction calls generalizing infusions parts with
  | nil => simp [describeCalls, attachAll, pure_eq_ok]
  | cons call calls ih =>
    have hnext (part : NativeFeePart) : (if part.kind = .burnNonFungible then some ([] : List
        InfusedAsset) else some []) = some [] := ite_self _
    constructor
    · intro h
      obtain ⟨part, hpart, h⟩ := bind_eq_ok.1 h
      obtain ⟨rest, hrest, h⟩ := bind_eq_ok.1 h
      rw [describeCall_eq] at hpart
      obtain ⟨part₀, hpart₀, hpart⟩ := bind_eq_ok.1 hpart
      rw [kind_of_attach hpart] at hrest
      obtain ⟨rest₀, hrest₀, hrest⟩ := ih.1 hrest
      refine ⟨part₀ :: rest₀, bind_eq_ok.2 ⟨part₀, hpart₀, bind_eq_ok.2 ⟨rest₀, ?_, rfl⟩⟩,
        bind_eq_ok.2 ⟨part, hpart, bind_eq_ok.2 ⟨rest, hrest, h⟩⟩⟩
      rw [hnext, hrest₀]
    · rintro ⟨parts₀, hparts₀, h⟩
      obtain ⟨part₀, hpart₀, hparts₀⟩ := bind_eq_ok.1 hparts₀
      obtain ⟨rest₀, hrest₀, hparts₀⟩ := bind_eq_ok.1 hparts₀
      rw [← Except.ok.inj hparts₀] at h
      obtain ⟨part, hpart, h⟩ := bind_eq_ok.1 h
      obtain ⟨rest, hrest, h⟩ := bind_eq_ok.1 h
      rw [hnext] at hrest₀
      refine bind_eq_ok.2 ⟨part, ?_, bind_eq_ok.2 ⟨rest, ?_, h⟩⟩
      · rw [describeCall_eq, hpart₀, ok_bind, hpart]
      · rw [kind_of_attach hpart, ih.2 ⟨rest₀, hrest₀, hrest⟩]

/-! ## Operations -/

/-- The operations a message performs, as it says them. -/
def operations (msg : TxMsg) : Result (List NativeFeePart) := describe msg noFacts

/-- One part, once without the options and once with them. -/
theorem attach_eq_ok {o : FeePlanOptions} {infusions : Option (List InfusedAsset)}
    {x y : Result NativeFeePart} {parts : List NativeFeePart}
    (hx : x = (do let part ← y; part.attach o infusions)) :
    (do let part ← x; pure [part] : Result (List NativeFeePart)) = .ok parts ↔
      ∃ parts₀, (do let part ← y; pure [part] : Result (List NativeFeePart)) = .ok parts₀ ∧
        attachAll o infusions parts₀ = .ok parts := by
  subst hx
  cases y with
  | error e => exact ⟨nofun, fun ⟨_, h, _⟩ => nomatch h⟩
  | ok part₀ =>
    constructor
    · intro h
      exact ⟨[part₀], rfl, h⟩
    · rintro ⟨parts₀, hparts₀, h⟩
      rw [← Except.ok.inj hparts₀] at h
      exact h

/-- Describing a message with some options is describing it with none, then stating
    the options. -/
theorem describe_eq_ok {msg : TxMsg} {o : FeePlanOptions} {parts : List NativeFeePart} :
    describe msg o = .ok parts ↔
      ∃ parts₀, operations msg = .ok parts₀ ∧ attachAll o o.infusions parts₀ = .ok parts := by
  unfold operations describe
  cases msg.msg with
  | call call => exact attach_eq_ok (describeCall_eq o o.infusions call)
  | callMulti batch => exact describeCalls_eq_ok
  | trade | phantasma => exact attach_eq_ok (x := pure _) (y := pure _) rfl
  | phantasmaRaw => simp [builder]
  | transferFungible | transferFungibleGasPayer | mintFungible | burnFungible
  | burnFungibleGasPayer => exact attach_eq_ok (x := pure _) (y := pure _) rfl
  | transferNonFungibleSingle | transferNonFungibleSingleGasPayer =>
    exact attach_eq_ok (x := pure _) (y := pure _) rfl
  | transferNonFungibleMulti inner | transferNonFungibleMultiGasPayer inner =>
    simp only [describeNftTransfer]
    cases instanceCount inner.instanceIds.length with
    | error e => exact ⟨nofun, fun ⟨_, h, _⟩ => nomatch h⟩
    | ok count => exact attach_eq_ok (x := pure _) (y := pure _) rfl
  | mintNonFungible inner =>
    dsimp only
    cases lengthU32 inner.rom.length with
    | error e => exact ⟨nofun, fun ⟨_, h, _⟩ => nomatch h⟩
    | ok rom =>
      dsimp only [ok_bind]
      cases lengthU32 inner.ram.length with
      | error e => exact ⟨nofun, fun ⟨_, h, _⟩ => nomatch h⟩
      | ok ram => exact attach_eq_ok (x := pure _) (y := pure _) rfl
  | burnNonFungible inner => exact attach_eq_ok (describeBurn_eq o o.infusions inner.tokenId 1)
  | burnNonFungibleGasPayer inner => 
    exact attach_eq_ok (describeBurn_eq o o.infusions inner.tokenId 1)

theorem lengthU32_eq_ok {len : ℕ} {n : UInt32} : lengthU32 len = .ok n ↔ n.toNat = len := by
  rw [← Machine.word32_eq_some, lengthU32]
  cases Machine.word32 len <;> simp [builder, pure_eq_ok]

theorem instanceCount_eq_ok {len : ℕ} {n : UInt32} :
    instanceCount len = .ok n ↔ n ≠ 0 ∧ n.toNat = len := by
  have h0 : n ≠ 0 ↔ n.toNat ≠ 0 := by rw [ne_eq, ← UInt32.toNat_inj, UInt32.toNat_zero]
  rw [instanceCount]
  split
  next hlen =>
    constructor
    · intro h
      cases h
    · rintro ⟨h, h'⟩
      exact absurd (h'.trans hlen) (h0.1 h)
  next hlen =>
    rw [lengthU32_eq_ok, h0]
    exact ⟨fun h => ⟨h ▸ hlen, h⟩, fun h => h.2⟩

theorem callArgs_eq_ok {α : Type} [CarbonSerializable α] {name : String} {args : Bytes}
    {value : α} : callArgs α name args = .ok value ↔ deserialize α args = .ok value := by
  constructor
  · intro h
    rw [callArgs] at h
    split at h
    next hd => rw [hd, ← Except.ok.inj h]
    next => cases h
    next => cases h
  · intro h
    rw [callArgs, h]
    rfl

open CarbonWriter CarbonReader Codec

/-- A call without sections is twelve bytes and its arguments. -/
theorem length_writeCarbon_call {call : TxMsgCall} {enc : Bytes}
    (hs : ¬MsgCallArgSections.present call.sections) (hw : writeCarbon call = .ok enc) :
    enc.length = 12 + call.args.length := by
  obtain ⟨args, hargs, hw⟩ := bind_eq_ok.1 hw
  have hargs' : writeByteArray call.args = .ok args := by
    rw [← hargs, TxMsgCall.writeArgs]
    cases hsec : call.sections with
    | none => rfl
    | some sections =>
      have hno : ¬sections.hasSections := by simpa [MsgCallArgSections.present, hsec] using hs
      simp only [if_neg hno]
      rfl
  rw [← Except.ok.inj hw]
  simp only [List.length_append, write4u, length_toLE, length_writeByteArray hargs']
  omega

theorem sum_map_of_mapM_lengthU32 {α : Type} {f : α → ℕ} {as : List α} {ns : List UInt32}
    (h : as.mapM (fun a => lengthU32 (f a)) = .ok ns) :
    ns.length = as.length ∧ (ns.map UInt32.toNat).sum = (as.map f).sum := by
  have hall := mapM_eq_ok.1 h
  clear h
  induction hall with
  | nil => simp
  | cons h _ ih => simp [lengthU32_eq_ok.1 h, ih]

/-- The kind a call is described as, which goes by its sections, its module and its method. -/
def TxMsgCall.describedKind (call : TxMsgCall) : NativeFeeKind :=
  if MsgCallArgSections.present call.sections then .script
  else if call.moduleId = ModuleId.token then
    if call.methodId = TokenContractMethod.transferFungible then .transferFungible
    else if call.methodId = TokenContractMethod.transferNonFungible then .transferNonFungible
    else if call.methodId = TokenContractMethod.mintFungible then .mintFungible
    else if call.methodId = TokenContractMethod.burnFungible then .burnFungible
    else if call.methodId = TokenContractMethod.burnNonFungible then .burnNonFungible
    else if call.methodId = TokenContractMethod.createToken then .createToken
    else if call.methodId = TokenContractMethod.createTokenSeries then .createTokenSeries
    else if call.methodId = TokenContractMethod.mintPhantasmaNonFungible then
      .mintPhantasmaNonFungible
    else .script
  else if call.moduleId = ModuleId.governance ∧
      call.methodId = GovernanceContractMethod.registerName then .registerName
  else .script

/-- The part a description gives, if any, is of this kind. -/
def IsOfKind (described : Result NativeFeePart) (kind : NativeFeeKind) : Prop :=
  ∀ part, described = .ok part → part.kind = kind

theorem isOfKind_pure {part : NativeFeePart} {kind : NativeFeeKind} (h : part.kind = kind) :
    IsOfKind (pure part) kind := by
  intro part' hpart
  rw [← Except.ok.inj hpart, h]

theorem isOfKind_bind {α : Type} {read : Result α} {describe : α → Result NativeFeePart}
    {kind : NativeFeeKind} (h : ∀ a, IsOfKind (describe a) kind) :
    IsOfKind (read >>= describe) kind := by
  intro part hpart
  obtain ⟨a, -, hpart⟩ := bind_eq_ok.1 hpart
  exact h a part hpart

/-- The description and its kind are chosen by the same condition. -/
theorem isOfKind_ite {c : Prop} [Decidable c] {described other : Result NativeFeePart}
    {kind kind' : NativeFeeKind} (h : IsOfKind described kind) (h' : IsOfKind other kind') :
    IsOfKind (if c then described else other) (if c then kind else kind') := by
  split
  · exact h
  · exact h'

theorem isOfKind_describeBurn (tokenId : UInt64) (count : UInt32) (state : NativeFeeParams)
    (infusions : Option (List InfusedAsset)) :
    IsOfKind (describeBurn tokenId count state infusions) .burnNonFungible := by
  cases infusions with
  | none =>
    intro part h
    cases h
  | some infusions => exact isOfKind_pure rfl

/-- What a call is described as is of the kind it goes by, whatever the options. -/
theorem kind_describedKind {call : TxMsgCall} {state : NativeFeeParams} {options : FeePlanOptions}
    {infusions : Option (List InfusedAsset)} {part : NativeFeePart}
    (h : describeCall call state options infusions = .ok part) :
    part.kind = call.describedKind := by
  suffices hkind : IsOfKind (describeCall call state options infusions) call.describedKind from
    hkind part h
  rw [describeCall, TxMsgCall.describedKind]
  refine isOfKind_ite (isOfKind_pure rfl) (isOfKind_ite ?_ ?_)
  · refine isOfKind_ite ?transfer (isOfKind_ite ?transferNfts (isOfKind_ite ?mint (isOfKind_ite
      ?burn (isOfKind_ite ?burnNfts (isOfKind_ite ?create (isOfKind_ite ?createSeries
      (isOfKind_ite ?mintNfts (isOfKind_pure rfl))))))))
    case transfer => exact isOfKind_bind fun args => isOfKind_pure rfl
    case transferNfts => exact isOfKind_bind fun args => isOfKind_bind fun count => isOfKind_pure rfl
    case mint => exact isOfKind_bind fun args => isOfKind_pure rfl
    case burn => exact isOfKind_bind fun args => isOfKind_pure rfl
    case burnNfts =>
      exact isOfKind_bind fun args => isOfKind_bind fun count => isOfKind_describeBurn _ _ _ _
    case create =>
      exact isOfKind_bind fun info => isOfKind_bind fun metadata =>
        isOfKind_bind fun symbolLength => isOfKind_bind fun size => isOfKind_pure rfl
    case createSeries => exact isOfKind_bind fun size => isOfKind_pure rfl
    case mintNfts =>
      exact isOfKind_bind fun args => isOfKind_bind fun count => isOfKind_bind fun roms =>
        isOfKind_bind fun rams => isOfKind_bind fun distinct => isOfKind_pure rfl
  · exact isOfKind_ite (isOfKind_bind fun args => isOfKind_bind fun nameLength => isOfKind_pure rfl)
      (isOfKind_pure rfl)

/-- The methods of the token module that are described as an operation of their own. -/
def tokenMethods : List (UInt32 × NativeFeeKind) := [
  (TokenContractMethod.transferFungible, .transferFungible),
  (TokenContractMethod.transferNonFungible, .transferNonFungible),
  (TokenContractMethod.mintFungible, .mintFungible),
  (TokenContractMethod.burnFungible, .burnFungible),
  (TokenContractMethod.burnNonFungible, .burnNonFungible),
  (TokenContractMethod.createToken, .createToken),
  (TokenContractMethod.createTokenSeries, .createTokenSeries),
  (TokenContractMethod.mintPhantasmaNonFungible, .mintPhantasmaNonFungible)]

theorem getD_lookup_cons (method method' : UInt32) (kind other : NativeFeeKind)
    (methods : List (UInt32 × NativeFeeKind)) :
    (((method', kind) :: methods).lookup method).getD other =
      if method = method' then kind else (methods.lookup method).getD other := by
  split
  next h => rw [h, List.lookup_cons_self, Option.getD_some]
  next h => rw [List.lookup_cons, beq_eq_false_iff_ne.2 h]

/-- A call without sections to the token module goes by its method. -/
theorem describedKind_of_token {call : TxMsgCall}
    (hsections : ¬MsgCallArgSections.present call.sections)
    (hmodule : call.moduleId = ModuleId.token) :
    call.describedKind = (tokenMethods.lookup call.methodId).getD .script := by
  rw [TxMsgCall.describedKind, if_neg hsections, if_pos hmodule, tokenMethods]
  simp only [getD_lookup_cons, List.lookup_nil, Option.getD_none]

/-- A call is described as a script, as a registration or as the operation of its method. -/
theorem describedKind_cases (call : TxMsgCall) :
    call.describedKind = .script ∨ call.describedKind = .registerName ∨
      ¬MsgCallArgSections.present call.sections ∧ call.moduleId = ModuleId.token ∧
        (call.methodId, call.describedKind) ∈ tokenMethods := by
  by_cases hsections : MsgCallArgSections.present call.sections
  · exact .inl (if_pos hsections)
  by_cases hmodule : call.moduleId = ModuleId.token
  · rw [describedKind_of_token hsections hmodule]
    match hsome : tokenMethods.lookup call.methodId with
    | none => exact .inl rfl
    | some kind =>
      obtain ⟨before, after, hmethods, -⟩ := List.lookup_eq_some_iff.1 hsome
      refine .inr (.inr ⟨hsections, hmodule, ?_⟩)
      rw [hmethods]
      exact List.mem_append_right _ List.mem_cons_self
  · rw [TxMsgCall.describedKind, if_neg hsections, if_neg hmodule]
    split
    · exact .inr (.inl rfl)
    · exact .inl rfl

/-- Just the calls of a method are described as its operation. -/
theorem describedKind_eq_iff {call : TxMsgCall} {method : UInt32} {kind : NativeFeeKind}
    (h : (method, kind) ∈ tokenMethods) : call.describedKind = kind ↔
      ¬MsgCallArgSections.present call.sections ∧ call.moduleId = ModuleId.token ∧
        call.methodId = method := by
  constructor
  · rintro rfl
    obtain ⟨hscript, hregister⟩ := (by decide : ∀ e ∈ tokenMethods,
      e.2 ≠ .script ∧ e.2 ≠ .registerName) _ h
    rcases describedKind_cases call with hkind | hkind | ⟨hsections, hmodule, hmem⟩
    · exact absurd hkind hscript
    · exact absurd hkind hregister
    · exact ⟨hsections, hmodule, (by decide : ∀ e ∈ tokenMethods, ∀ e' ∈ tokenMethods,
        e.2 = e'.2 → e.1 = e'.1) _ hmem _ h rfl⟩
  · rintro ⟨hsections, hmodule, rfl⟩
    rw [describedKind_of_token hsections hmodule,
      (by decide : ∀ e ∈ tokenMethods, tokenMethods.lookup e.1 = some e.2) _ h]
    rfl

end PhantasmaSdk
