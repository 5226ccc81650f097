import PhantasmaSdk.Carbon.NftAddress
import PhantasmaSdk.Fees.Operation
import PhantasmaSdk.Machine.Handler
import PhantasmaSdk.Rpc.Decimals
import PhantasmaSdk.Rpc.Pages

/-!
# What an NFT holds

A burn returns what the NFT holds at its own address, and pays for each of these assets.
The node is asked for them: for the pages of the fungible balances, for the id of each
such token, for the pages of the owned tokens, and for the number of instances of each.
Reading that succeeds has missed nothing that was told (`holdingsRead_infusedAssets`):
each balance and each owned token of each page is an asset, in their order, with the
numbers whose text was given.
-/

namespace PhantasmaSdk

open Machine Codec

/-! ## Numbers in text -/

/-- A plus sign before digits is no part of a number. -/
def withoutPlus : List Char → List Char
  | ['+'] => ['+']
  | '+' :: digits => digits
  | digits => digits

/-- `from_str` of an unsigned integer of so many bits. -/
def parseUnsigned (bits : ℕ) (text : String) : Except String ℕ :=
  let digits := withoutPlus text.toList
  if digits = [] then .error "cannot parse integer from empty string"
  else digits.foldlM (fun value c =>
    if ¬c.isDigit then .error "invalid digit found in string"
    else if 2 ^ bits ≤ 10 * value + (c.toNat - 48) then
      .error "number too large to fit in target type"
    else .ok (10 * value + (c.toNat - 48))) 0

/-- The text is the digits of the number, after a plus sign or not. -/
def IsNumber (bits : ℕ) (text : String) (n : ℕ) : Prop :=
  ∃ digits, (text.toList = digits ∨ text.toList = '+' :: digits) ∧ digits ≠ [] ∧ Digits digits ∧
    digitsValue digits = n ∧ n < 2 ^ bits

theorem foldlM_digits_eq_ok {bits : ℕ} {digits : List Char} {value n : ℕ} (hv : value < 2 ^ bits) :
    digits.foldlM (fun value c =>
      if ¬c.isDigit then Except.error "invalid digit found in string"
      else if 2 ^ bits ≤ 10 * value + (c.toNat - 48) then
        .error "number too large to fit in target type"
      else .ok (10 * value + (c.toNat - 48))) value = Except.ok n ↔
      Digits digits ∧ value * 10 ^ digits.length + digitsValue digits = n ∧ n < 2 ^ bits := by
  induction digits generalizing value with
  | nil =>
    simp only [List.length_nil, pow_zero, mul_one, digitsValue_nil, add_zero]
    constructor
    · rintro ⟨⟩
      exact ⟨fun _ h => absurd h List.not_mem_nil, rfl, hv⟩
    · rintro ⟨-, rfl, -⟩
      rfl
  | cons c digits ih =>
    rw [List.foldlM_cons, digits_cons, digitsValue_cons, List.length_cons]
    by_cases hc : c.isDigit
    · rw [if_neg (not_not.2 hc)]
      have hvalue : value * 10 ^ (digits.length + 1) + ((c.toNat - 48) * 10 ^ digits.length +
          digitsValue digits) = (10 * value + (c.toNat - 48)) * 10 ^ digits.length +
            digitsValue digits := by ring
      by_cases hlarge : 2 ^ bits ≤ 10 * value + (c.toNat - 48)
      · -- What is too large already grows with each digit.
        rw [if_pos hlarge]
        refine iff_of_false (by exact nofun) ?_
        rintro ⟨-, rfl, hlt⟩
        rw [hvalue] at hlt
        have hpos : 0 < 10 ^ digits.length := by positivity
        have hle := Nat.le_mul_of_pos_right (10 * value + (c.toNat - 48)) hpos
        omega
      · rw [if_neg hlarge]
        refine (ih (not_le.1 hlarge)).trans ?_
        rw [hvalue]
        simp only [hc, true_and]
    · rw [if_pos hc]
      exact iff_of_false (by exact nofun) fun h => hc h.1.1

theorem withoutPlus_eq_iff {cs digits : List Char} (hne : digits ≠ []) (hd : Digits digits) :
    withoutPlus cs = digits ↔ cs = digits ∨ cs = '+' :: digits := by
  have hplus : ∀ rest, '+' :: rest ≠ digits := by
    rintro rest rfl
    exact absurd (hd '+' List.mem_cons_self) (by decide)
  fun_cases withoutPlus cs with
  | case1 => simp [hplus, hne.symm]
  | case2 digits' => simp [hplus]
  | case3 _ _ hno =>
    refine ⟨Or.inl, ?_⟩
    rintro (h | h)
    · exact h
    · exact (hno _ h).elim

theorem parseUnsigned_eq_ok {bits : ℕ} {text : String} {n : ℕ} :
    parseUnsigned bits text = .ok n ↔ IsNumber bits text n := by
  have hnil : IsNumber bits text n ↔ ∃ digits, withoutPlus text.toList = digits ∧ digits ≠ [] ∧
      Digits digits ∧ digitsValue digits = n ∧ n < 2 ^ bits := by
    refine exists_congr fun digits => ?_
    constructor
    · rintro ⟨htext, hne, hd, hn⟩
      exact ⟨(withoutPlus_eq_iff hne hd).2 htext, hne, hd, hn⟩
    · rintro ⟨htext, hne, hd, hn⟩
      exact ⟨(withoutPlus_eq_iff hne hd).1 htext, hne, hd, hn⟩
  rw [hnil, exists_eq_left', parseUnsigned]
  by_cases hempty : withoutPlus text.toList = []
  · rw [if_pos hempty]
    exact iff_of_false (by exact nofun) fun h => h.1 hempty
  · rw [if_neg hempty, foldlM_digits_eq_ok (by positivity), zero_mul, zero_add]
    exact ⟨fun h => ⟨hempty, h⟩, fun h => h.2⟩

/-! ## Asking -/

/-- A balance with the symbol of its token. -/
structure TokenBalanceResult extends BalanceResult where
  symbol : String

structure TokenResult where
  symbol : String
  carbonId : String

/-- What is asked about the account at an address, or about a token. -/
inductive HoldingQuery
  | fungibleTokens (address cursor : String)
  | token (symbol : String)
  | ownedTokens (address cursor : String)
  | tokenBalance (address symbol : String)

abbrev HoldingQuery.Answer : HoldingQuery → Type
  | fungibleTokens .. => Result (CursorPaginatedResult TokenBalanceResult)
  | token _ => Result TokenResult
  | ownedTokens .. => Result (CursorPaginatedResult TokenResult)
  | tokenBalance .. => Result TokenBalanceResult

abbrev HoldingDialogue (α : Type) : Type :=
  Dialogue HoldingQuery HoldingQuery.Answer (Result α)

/-- An error that is returned says what was being done. -/
def named {α : Type} (doing : String) : Result α → Result α
  | .error (.error e) => rpc none s!"{doing}: {e.toText}"
  | result => result

section

-- How text is shown in quotes.
variable (quoted : String → String)

def parseCarbonId (value symbol : String) : Result UInt64 :=
  match parseUnsigned 64 value with
  | .ok id => pure (UInt64.ofNat id)
  | .error _ => rpc none s!"token {symbol} has no Carbon id: {quoted value}"

/-- The asset of a fungible balance, whose token the node looks up. -/
def fungibleAsset (balance : TokenBalanceResult) : HoldingDialogue InfusedAsset :=
  .ask (.token balance.symbol) fun token => .done do
    let token ← named s!"resolving infused token {balance.symbol}" token
    let id ← parseCarbonId quoted token.carbonId balance.symbol
    pure { tokenId := some id }

/-- The asset of an owned token, of which the node tells how many there are. -/
def ownedAsset (address : String) (token : TokenResult) : HoldingDialogue InfusedAsset :=
  .ask (.tokenBalance address token.symbol) fun balance => .done do
    let balance ← named s!"reading infused {token.symbol} instances" balance
    match parseUnsigned 32 balance.amount with
    | .error err =>
      rpc none s!"infused {token.symbol} instance count {quoted balance.amount}: {err}"
    | .ok instances => do
      let id ← parseCarbonId quoted token.carbonId token.symbol
      pure { tokenId := some id, nonFungible := true,
             instanceCount := some (UInt32.ofNat instances) }

def fungibleBalances (address : String) : HoldingDialogue (List TokenBalanceResult) :=
  (readAllPages : PageDialogue TokenBalanceResult).through fun cursor =>
    .ask (.fungibleTokens address cursor) .done

def ownedTokens (address : String) : HoldingDialogue (List TokenResult) :=
  (readAllPages : PageDialogue TokenResult).through fun cursor =>
    .ask (.ownedTokens address cursor) .done

def infusedAssets (tokenId instanceId : UInt64) : HoldingDialogue (List InfusedAsset) :=
  let address := hexEncode (getNftAddress tokenId instanceId).bytes
  (fungibleBalances address).andThen fun balances =>
    (Dialogue.forEach (fungibleAsset quoted) balances).andThen fun fungible =>
      (ownedTokens address).andThen fun owned =>
        (Dialogue.forEach (ownedAsset quoted address) owned).andThen fun nfts =>
          .done (pure (fungible ++ nfts))

end

/-! ## What is told -/

/-- What was told of an address, in turn: the pages of the balances, the token of each of
    them, the pages of the owned tokens, and the balance of each. -/
structure Holdings where
  balancePages : List (String × CursorPaginatedResult TokenBalanceResult)
  tokens : List TokenResult
  ownedPages : List (String × CursorPaginatedResult TokenResult)
  counts : List TokenBalanceResult

namespace Holdings

def balances (told : Holdings) : List TokenBalanceResult :=
  told.balancePages.flatMap fun page => page.2.items

def owned (told : Holdings) : List TokenResult :=
  told.ownedPages.flatMap fun page => page.2.items

/-- The questions it was told in answer to, all about one address. -/
def log (address : String) (told : Holdings) : Dialogue.Log HoldingQuery.Answer :=
  told.balancePages.map (fun page => ⟨.fungibleTokens address page.1, .ok page.2⟩) ++
    ((told.balances.zip told.tokens).map (fun told => ⟨.token told.1.symbol, .ok told.2⟩) ++
      (told.ownedPages.map (fun page => ⟨.ownedTokens address page.1, .ok page.2⟩) ++
        (told.owned.zip told.counts).map fun told =>
          ⟨.tokenBalance address told.1.symbol, .ok told.2⟩))

/-- Each balance and each owned token is an asset, with the numbers that were told. No page
    is asked for twice. -/
structure Lists (told : Holdings) (assets : List InfusedAsset) : Prop where
  tokens : told.tokens.length = told.balances.length
  counts : told.counts.length = told.owned.length
  balancePages : told.balancePages.length ≤ 1000 ∧ (told.balancePages.map Prod.fst).Nodup
  ownedPages : told.ownedPages.length ≤ 1000 ∧ (told.ownedPages.map Prod.fst).Nodup
  assets : ∃ fungible nfts, assets = fungible ++ nfts ∧
    List.Forall₂ (fun (token : TokenResult) asset => ∃ id, IsNumber 64 token.carbonId id ∧
      asset = ({ tokenId := some (UInt64.ofNat id) } : InfusedAsset)) told.tokens fungible ∧
    List.Forall₂ (fun (held : TokenResult × TokenBalanceResult) asset => ∃ id instances,
      IsNumber 64 held.1.carbonId id ∧ IsNumber 32 held.2.amount instances ∧
        asset = ({ tokenId := some (UInt64.ofNat id), nonFungible := true,
                   instanceCount := some (UInt32.ofNat instances) } : InfusedAsset))
      (told.owned.zip told.counts) nfts

end Holdings

/-- A log without a failed answer is one of pages with their cursors. -/
theorem exists_pages_of_map_eq {Item : Type} {log : Dialogue.Log fun _ : String =>
      Result (CursorPaginatedResult Item)} {pages : List (CursorPaginatedResult Item)}
    (h : log.map (·.2) = pages.map .ok) :
    ∃ read : List (String × CursorPaginatedResult Item),
      log = read.map (fun page => ⟨page.1, .ok page.2⟩) ∧ read.map Prod.snd = pages ∧
        read.map Prod.fst = log.map Sigma.fst ∧ read.length = log.length := by
  induction log generalizing pages with
  | nil =>
    obtain rfl := List.map_eq_nil_iff.1 h.symm
    exact ⟨[], rfl, rfl, rfl, rfl⟩
  | cons e log ih =>
    obtain ⟨cursor, answer⟩ := e
    obtain ⟨page, rest, rfl, hpage, hrest⟩ := List.map_eq_cons_iff.1 h.symm
    obtain ⟨read, rfl, rfl, hfst, hlength⟩ := ih hrest.symm
    dsimp only at hpage
    rw [← hpage]
    refine ⟨(cursor, page) :: read, rfl, rfl, ?_, ?_⟩
    · rw [List.map_cons, List.map_cons, hfst]
    · rw [List.length_cons, List.length_cons, hlength]

/-- What is read of pages is what is in them. -/
theorem exists_pages_of_ends {Item : Type} {log : Dialogue.Log fun _ : String =>
      Result (CursorPaginatedResult Item)} {items : List Item}
    (h : (readAllPages : PageDialogue Item).Ends log (.ok items)) :
    ∃ pages : List (String × CursorPaginatedResult Item),
      log = pages.map (fun page => ⟨page.1, .ok page.2⟩) ∧
        items = pages.flatMap (fun page => page.2.items) ∧
          pages.length ≤ 1000 ∧ (pages.map Prod.fst).Nodup := by
  have : Nonempty (Result (CursorPaginatedResult Item)) := ⟨overflow⟩
  obtain ⟨answers, hanswers⟩ := Dialogue.exists_converse_of_ends h
  have hlog : (pagesFrom answers (readPages maxPages [] "" [])).1 = log :=
    congrArg Prod.fst hanswers
  have hread : (pagesFrom answers (readPages maxPages [] "" [])).2 = .ok items :=
    congrArg Prod.snd hanswers
  obtain ⟨_, hanswered, hitems⟩ := items_pagesFrom hread
  have hle := length_pagesFrom_le answers maxPages [] "" []
  obtain ⟨rest, hprefix, hnodup, hnew⟩ := cursors_pagesFrom answers maxPages [] "" []
  rw [hlog] at hanswered hle hprefix
  obtain ⟨pages, hpages, rfl, hfst, hlength⟩ := exists_pages_of_map_eq hanswered
  refine ⟨pages, hpages, ?_, hlength ▸ hle, ?_⟩
  · rw [hitems, List.nil_append, List.flatMap_map]
  · rw [hfst]
    refine hprefix.sublist.nodup (List.nodup_cons.2 ⟨fun hmem => ?_, hnodup⟩)
    exact (hnew "" hmem).1 rfl

theorem eq_map_of_forall₂ {α β : Type} {f : α → β} {as : List α} {bs : List β}
    (h : List.Forall₂ (fun a b => b = f a) as bs) : bs = as.map f := by
  induction h with
  | nil => rfl
  | cons h _ ih => rw [h, ih, List.map_cons]

variable {quoted : String → String} {address : String}
  {log : Dialogue.Log HoldingQuery.Answer}

theorem exists_pages_of_fungibleBalances {balances : List TokenBalanceResult}
    (h : (fungibleBalances address).Ends log (.ok balances)) :
    ∃ pages : List (String × CursorPaginatedResult TokenBalanceResult),
      log = pages.map (fun page => ⟨.fungibleTokens address page.1, .ok page.2⟩) ∧
        balances = pages.flatMap (fun page => page.2.items) ∧
          pages.length ≤ 1000 ∧ (pages.map Prod.fst).Nodup := by
  obtain ⟨asked, hasked, hanswered⟩ := Dialogue.ends_through.1 h
  obtain ⟨pages, rfl, hrest⟩ := exists_pages_of_ends hasked
  refine ⟨pages, ?_, hrest⟩
  have hlog := hanswered.forall₂_of_ask
  rw [List.forall₂_map_left_iff] at hlog
  exact eq_map_of_forall₂ (hlog.imp fun page e => by rintro ⟨x, rfl, rfl⟩; rfl)

theorem exists_pages_of_ownedTokens {owned : List TokenResult}
    (h : (ownedTokens address).Ends log (.ok owned)) :
    ∃ pages : List (String × CursorPaginatedResult TokenResult),
      log = pages.map (fun page => ⟨.ownedTokens address page.1, .ok page.2⟩) ∧
        owned = pages.flatMap (fun page => page.2.items) ∧
          pages.length ≤ 1000 ∧ (pages.map Prod.fst).Nodup := by
  obtain ⟨asked, hasked, hanswered⟩ := Dialogue.ends_through.1 h
  obtain ⟨pages, rfl, hrest⟩ := exists_pages_of_ends hasked
  refine ⟨pages, ?_, hrest⟩
  have hlog := hanswered.forall₂_of_ask
  rw [List.forall₂_map_left_iff] at hlog
  exact eq_map_of_forall₂ (hlog.imp fun page e => by rintro ⟨x, rfl, rfl⟩; rfl)

theorem named_eq_ok {α : Type} {doing : String} {result : Result α} {a : α} :
    named doing result = .ok a ↔ result = .ok a := by
  rcases result with (e | p) | a' <;> simp [named, rpc]

theorem parseCarbonId_eq_ok {value symbol : String} {id : UInt64} :
    parseCarbonId quoted value symbol = .ok id ↔
      ∃ n, IsNumber 64 value n ∧ UInt64.ofNat n = id := by
  simp only [← parseUnsigned_eq_ok]
  rw [parseCarbonId]
  cases parseUnsigned 64 value with
  | error e => simp [rpc]
  | ok n => simp [pure_eq_ok]

/-- A balance is read by one question, about its token. -/
theorem ends_fungibleAsset (balance : TokenBalanceResult)
    (log : Dialogue.Log HoldingQuery.Answer) (asset : InfusedAsset)
    (h : (fungibleAsset quoted balance).Ends log (.ok asset)) :
    ∃ token : TokenResult, log = [⟨.token balance.symbol, .ok token⟩] ∧
      ∃ id, IsNumber 64 token.carbonId id ∧ asset = { tokenId := some (UInt64.ofNat id) } := by
  obtain _ | ⟨e, log⟩ := log
  · exact h.elim
  obtain ⟨answer, rfl, hdone⟩ := h
  obtain ⟨rfl, hresult⟩ := Dialogue.ends_done.1 hdone
  obtain ⟨token, htoken, hread⟩ := bind_eq_ok.1 hresult
  obtain ⟨id, hid, hasset⟩ := bind_eq_ok.1 hread
  obtain ⟨n, hn, hnumber⟩ := parseCarbonId_eq_ok.1 hid
  refine ⟨token, ?_, n, hn, ?_⟩
  · rw [named_eq_ok.1 htoken]
  · rw [hnumber]
    exact (Except.ok.inj hasset).symm

/-- An owned token is read by one question, about the balance of it. -/
theorem ends_ownedAsset (token : TokenResult) (log : Dialogue.Log HoldingQuery.Answer)
    (asset : InfusedAsset) (h : (ownedAsset quoted address token).Ends log (.ok asset)) :
    ∃ balance : TokenBalanceResult, log = [⟨.tokenBalance address token.symbol, .ok balance⟩] ∧
      ∃ id instances, IsNumber 64 token.carbonId id ∧ IsNumber 32 balance.amount instances ∧
        asset = { tokenId := some (UInt64.ofNat id), nonFungible := true,
                  instanceCount := some (UInt32.ofNat instances) } := by
  obtain _ | ⟨e, log⟩ := log
  · exact h.elim
  obtain ⟨answer, rfl, hdone⟩ := h
  obtain ⟨rfl, hresult⟩ := Dialogue.ends_done.1 hdone
  obtain ⟨balance, hbalance, hread⟩ := bind_eq_ok.1 hresult
  refine ⟨balance, by rw [named_eq_ok.1 hbalance], ?_⟩
  cases hcount : parseUnsigned 32 balance.amount with
  | error err => rw [hcount] at hread; cases hread
  | ok instances =>
    rw [hcount] at hread
    obtain ⟨id, hid, hasset⟩ := bind_eq_ok.1 hread
    obtain ⟨n, hn, hnumber⟩ := parseCarbonId_eq_ok.1 hid
    refine ⟨n, instances, hn, parseUnsigned_eq_ok.1 hcount, ?_⟩
    rw [hnumber]
    exact (Except.ok.inj hasset).symm

/-- What is read of an NFT is all that was told of it. -/
theorem holdings_of_ends {tokenId instanceId : UInt64} {assets : List InfusedAsset}
    (h : (infusedAssets quoted tokenId instanceId).Ends log (.ok assets)) :
    ∃ told : Holdings,
      log = told.log (hexEncode (getNftAddress tokenId instanceId).bytes) ∧ told.Lists assets := by
  obtain ⟨balances, l₁, _, rfl, hbalances, h₁⟩ := Dialogue.ends_andThen_ok.1 h
  obtain ⟨fungible, l₂, _, rfl, hfungible, h₂⟩ := Dialogue.ends_andThen_ok.1 h₁
  obtain ⟨owned, l₃, _, rfl, howned, h₃⟩ := Dialogue.ends_andThen_ok.1 h₂
  obtain ⟨nfts, l₄, l₅, rfl, hnfts, h₄⟩ := Dialogue.ends_andThen_ok.1 h₃
  obtain ⟨rfl, hassets⟩ := Dialogue.ends_done.1 h₄
  obtain ⟨balancePages, rfl, rfl, hbalancePages⟩ := exists_pages_of_fungibleBalances hbalances
  obtain ⟨tokens, htokens, rfl, hids⟩ :=
    Dialogue.exists_of_ends_forEach ends_fungibleAsset hfungible
  obtain ⟨ownedPages, rfl, rfl, hownedPages⟩ := exists_pages_of_ownedTokens howned
  obtain ⟨counts, hcounts, rfl, hheld⟩ := Dialogue.exists_of_ends_forEach ends_ownedAsset hnfts
  refine ⟨⟨balancePages, tokens, ownedPages, counts⟩, by rw [List.append_nil]; rfl, htokens,
    hcounts, hbalancePages, hownedPages, fungible, nfts, (Except.ok.inj hassets).symm, ?_, hheld⟩
  have hsnd : (List.zip (balancePages.flatMap fun page => page.2.items) tokens).map Prod.snd =
      tokens := List.map_snd_zip htokens.le
  rw [← hsnd, List.forall₂_map_left_iff]
  exact hids

/-! ## What fails -/

/-- The answer is a failure. -/
def HoldingQuery.Fails : ∀ q : HoldingQuery, q.Answer → Prop
  | fungibleTokens .., answer => ∃ e, answer = .error e
  | token _, answer => ∃ e, answer = .error e
  | ownedTokens .., answer => ∃ e, answer = .error e
  | tokenBalance .., answer => ∃ e, answer = .error e

/-- A page that is not given ends the reading of pages. -/
theorem strict_readAllPages {Item : Type} :
    (readAllPages : PageDialogue Item).Strict fun _ answer => ∃ e, answer = .error e := by
  rintro log result hends entry hentry ⟨e, he⟩
  have : Nonempty (Result (CursorPaginatedResult Item)) := ⟨overflow⟩
  obtain ⟨answers, hanswers⟩ := Dialogue.exists_converse_of_ends hends
  have hlog : (pagesFrom answers (readPages maxPages [] "" [])).1 = log :=
    congrArg Prod.fst hanswers
  have hread : (pagesFrom answers (readPages maxPages [] "" [])).2 = result :=
    congrArg Prod.snd hanswers
  refine ⟨e, hread ▸ failed_pagesFrom ?_⟩
  rw [hlog]
  exact List.mem_map.2 ⟨entry, hentry, he⟩

theorem exists_named_error {α : Type} (doing : String) (e : Fault) :
    ∃ e', (named doing (.error e) : Result α) = .error e' := by
  cases e with
  | error e => exact ⟨_, rfl⟩
  | panic p => exact ⟨_, rfl⟩

theorem fails_of_ends_ask {q : HoldingQuery} {x : q.Answer}
    (h : (Dialogue.ask q .done : Dialogue HoldingQuery HoldingQuery.Answer q.Answer).Ends log x) :
    ∀ e ∈ log, HoldingQuery.Fails e.1 e.2 → HoldingQuery.Fails q x := by
  intro e he hfails
  obtain _ | ⟨_, log⟩ := log
  · exact h.elim
  obtain ⟨x', rfl, hdone⟩ := h
  obtain ⟨rfl, rfl⟩ := Dialogue.ends_done.1 hdone
  obtain rfl := List.mem_singleton.1 he
  exact hfails

/-- Where one question is all that is asked, what is made of a failed answer is a failure. -/
theorem strict_ask {α : Type} {q : HoldingQuery} {make : q.Answer → Result α}
    (hmake : ∀ x, HoldingQuery.Fails q x → ∃ e, make x = .error e) :
    (Dialogue.ask q fun x => .done (make x) : HoldingDialogue α).Strict HoldingQuery.Fails := by
  intro log result hends e he hfails
  obtain _ | ⟨_, log⟩ := log
  · exact hends.elim
  obtain ⟨x, rfl, hdone⟩ := hends
  obtain ⟨rfl, rfl⟩ := Dialogue.ends_done.1 hdone
  obtain rfl := List.mem_singleton.1 he
  exact hmake x hfails

theorem strict_fungibleBalances : (fungibleBalances address).Strict HoldingQuery.Fails :=
  strict_readAllPages.through fun _ _ _ hends e he hfails =>
    fails_of_ends_ask hends e he hfails

theorem strict_ownedTokens : (ownedTokens address).Strict HoldingQuery.Fails :=
  strict_readAllPages.through fun _ _ _ hends e he hfails =>
    fails_of_ends_ask hends e he hfails

theorem strict_fungibleAsset (balance : TokenBalanceResult) :
    (fungibleAsset quoted balance).Strict HoldingQuery.Fails := by
  refine strict_ask ?_
  rintro _ ⟨e, rfl⟩
  obtain ⟨e', he'⟩ := exists_named_error s!"resolving infused token {balance.symbol}" e
  exact ⟨e', by rw [he', error_bind]⟩

theorem strict_ownedAsset (token : TokenResult) :
    (ownedAsset quoted address token).Strict HoldingQuery.Fails := by
  refine strict_ask ?_
  rintro _ ⟨e, rfl⟩
  obtain ⟨e', he'⟩ := exists_named_error s!"reading infused {token.symbol} instances" e
  exact ⟨e', by rw [he', error_bind]⟩

/-- Whatever is not answered, reading what an NFT holds fails. -/
theorem strict_infusedAssets (tokenId instanceId : UInt64) :
    (infusedAssets quoted tokenId instanceId).Strict HoldingQuery.Fails :=
  strict_fungibleBalances.andThen fun balances =>
    (Dialogue.Strict.forEach strict_fungibleAsset balances).andThen fun _ =>
      strict_ownedTokens.andThen fun owned =>
        (Dialogue.Strict.forEach strict_ownedAsset owned).andThen fun _ => Dialogue.strict_done _

/-- How the node is asked what an NFT holds. -/
structure HoldingsRead (tokenId instanceId : UInt64) (log : Dialogue.Log HoldingQuery.Answer)
    (result : Result (List InfusedAsset)) : Prop where
  /-- What is read is all that was told, of the NFT's own address. -/
  told : ∀ assets, result = .ok assets → ∃ told : Holdings,
    log = told.log (hexEncode (getNftAddress tokenId instanceId).bytes) ∧ told.Lists assets
  failed : ∀ e ∈ log, HoldingQuery.Fails e.1 e.2 → ∃ fault, result = .error fault

/-- Whatever a node answers, it is asked so. -/
theorem holdingsRead_infusedAssets (quoted : String → String) (tokenId instanceId : UInt64)
    (answers : ℕ → ∀ q : HoldingQuery, q.Answer) :
    HoldingsRead tokenId instanceId ((infusedAssets quoted tokenId instanceId).converse answers).1
      ((infusedAssets quoted tokenId instanceId).converse answers).2 where
  told _ h := holdings_of_ends (h ▸ Dialogue.ends_converse answers)
  failed := strict_infusedAssets tokenId instanceId _ _ (Dialogue.ends_converse answers)

end PhantasmaSdk
