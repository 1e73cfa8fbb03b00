import A3Net.Construction.Relay.Billing
import A3Net.Machine.Run
import Mathlib.Algebra.Order.BigOperators.Group.List
import Mathlib.Algebra.Order.Ring.Nat

namespace A3Net.Relay

open Identity Machine Token List

/-- A post carries a signed pledge or a signed receipt. -/
inductive Entry where
  | credit (pledge : PledgeBody) (pledgor : Address)
  | redemption (receipt : ReceiptBody)

def Entry.pledge : Entry → Option (PledgeBody × Address)
  | .credit pledge pledgor => some (pledge, pledgor)
  | .redemption _ => none

def Entry.receipt : Entry → Option ReceiptBody
  | .credit .. => none
  | .redemption receipt => some receipt

/-- The books add to the state the pledges credited and the receipts redeemed so far. -/
structure Books where
  handle : EnabledState
  entries : List Entry := []

def Books.credited (books : Books) : List (PledgeBody × Address) :=
  books.entries.filterMap Entry.pledge

def Books.redeemed (books : Books) : List ReceiptBody := books.entries.filterMap Entry.receipt

variable (lib : Library) (extract : Extractor) (wallet : Address)

/-- This is what a post enters when it passes the checks that do not read the balances. -/
def posted : Post → Option Entry
  | .pledge now body => (checkPledge lib wallet now body).toOption.map fun accepted =>
    .credit accepted.1 accepted.2
  | .redeem body => (extract body).toOption.bind fun receipt =>
    (checkReceipt lib wallet receipt).toOption.map .redemption

/-- A request that succeeds is entered. -/
def Books.post (books : Books) (req : Post) : Books :=
  match handlePost lib extract books.handle req with
  | (handle, .ok) => ⟨handle, books.entries ++ (posted lib extract books.handle.wallet req).toList⟩
  | (handle, .error _) => {books with handle}

/-- No two pledges have one nonce, and no receipt stands twice. -/
structure Once (entries : List Entry) : Prop where
  nonces : ((entries.filterMap Entry.pledge).map fun pledge => pledge.1.nonce).Nodup
  receipts : (entries.filterMap Entry.receipt).Nodup

variable (books : Books) {handle : EnabledState} {extract wallet} {balance : U128}

/-- These receipts charge a nonce this much, whoever they name as pledgor. -/
def chargedNonce (nonce : String) (receipts : List ReceiptBody) : Nat :=
  ((receipts.filter fun receipt => receipt.pledgeNonce = nonce).map (·.chargedAtomic.val)).sum

/-- These receipts charge a pledgor and a nonce this much. -/
def chargedPledge (pledgor : Address) (nonce : String) (receipts : List ReceiptBody) : Nat :=
  chargedNonce nonce (receipts.filter fun receipt => receipt.pledgor = pledgor)

/-- Each pledge is credited once, each receipt is redeemed once, and no pledge is overcharged. -/
def Conserves : Prop :=
  books.credited.Nodup ∧ books.redeemed.Nodup ∧
    ∀ pledge ∈ books.credited,
      chargedPledge pledge.2 pledge.1.nonce books.redeemed ≤ pledge.1.amountAtomic.val

/-- Each open balance is what one credited pledge has left. -/
structure Balanced (books : Books) : Prop where
  known : ∀ receipt ∈ books.redeemed, (books.handle.state.open_.lookup receipt.pledgeNonce).isSome
  opened : ∀ nonce, (books.handle.state.open_.lookup nonce).isSome →
    ∃ pledge ∈ books.credited, pledge.1.nonce = nonce
  left : ∀ pledge ∈ books.credited, ∃ balance,
    books.handle.state.open_.lookup pledge.1.nonce = some balance ∧
      balance.val + chargedNonce pledge.1.nonce books.redeemed = pledge.1.amountAtomic.val

/-- The credit adds the amount to the balance of the nonce. -/
def EnabledState.credit (pledge : PledgeBody) : EnabledState :=
  {handle with
    state := {handle.state with
      open_ := addOpen handle.state.open_ pledge.nonce pledge.amountAtomic}}

/-- The redemption takes the charge from the balance of the nonce. -/
def EnabledState.redeem (receipt : ReceiptBody) (balance : U128) :
    EnabledState :=
  {handle with
    state := {handle.state with
      open_ := AList.insert receipt.pledgeNonce (saturatingSub balance receipt.chargedAtomic)
        handle.state.open_
      issued := handle.state.issued + 1}}

variable {lib} {books} {req : Post}

section Accepted

variable {accepted : PledgeBody × Address} {given : Receipt} {receipt : ReceiptBody}

theorem posted_pledge (checked : checkPledge lib wallet now text = .ok accepted) :
    posted lib extract wallet (.pledge now text) = some (.credit accepted.1 accepted.2) := by
  rw [posted, checked]
  rfl

theorem posted_redeem (read : extract text = .ok given)
    (checked : checkReceipt lib wallet given = .ok receipt) :
    posted lib extract wallet (.redeem text) = some (.redemption receipt) := by
  rw [posted, read, Except.toOption, Option.bind_some, checked]
  rfl

/-- An accepted pledge is credited. -/
theorem post_pledge (own : books.handle.wallet = wallet)
    (checked : checkPledge lib wallet now text = .ok accepted) :
    books.post lib extract (.pledge now text) =
      ⟨books.handle.credit accepted.1, books.entries ++ [.credit accepted.1 accepted.2]⟩ := by
  cases own
  simp only [Books.post, handlePost, handlePledge, posted_pledge checked, checked]
  rfl

/-- An accepted receipt is redeemed when the balance of its nonce covers it. -/
theorem post_redeem (own : books.handle.wallet = wallet) (read : extract text = .ok given)
    (checked : checkReceipt lib wallet given = .ok receipt)
    (found : books.handle.state.open_.lookup receipt.pledgeNonce = some balance)
    (covered : receipt.chargedAtomic ≤ balance) :
    books.post lib extract (.redeem text) =
      ⟨books.handle.redeem receipt balance, books.entries ++ [.redemption receipt]⟩ := by
  cases own
  simp only [Books.post, handlePost, posted_redeem read checked, read, handleRedeem, checked,
    found, if_neg (Fin.not_lt.mpr covered)]
  rfl

end Accepted

/-- A rejected request leaves the books alone. Any other request makes its entry. -/
theorem post_cases :
    books.post lib extract req = books ∨
    (∃ pledge pledgor,
      posted lib extract books.handle.wallet req = some (.credit pledge pledgor) ∧
        books.post lib extract req =
          ⟨books.handle.credit pledge, books.entries ++ [.credit pledge pledgor]⟩) ∨
    ∃ receipt balance, posted lib extract books.handle.wallet req = some (.redemption receipt) ∧
      books.handle.state.open_.lookup receipt.pledgeNonce = some balance ∧
      receipt.chargedAtomic ≤ balance ∧
      books.post lib extract req =
        ⟨books.handle.redeem receipt balance, books.entries ++ [.redemption receipt]⟩ := by
  cases req with
  | pledge now text =>
    cases checked : checkPledge lib books.handle.wallet now text with
    | error rejection => exact Or.inl (by rw [Books.post, handlePost, handlePledge, checked])
    | ok accepted => exact Or.inr (Or.inl ⟨_, _, posted_pledge checked, post_pledge rfl checked⟩)
  | redeem text =>
    cases read : extract text with
    | error rejection => exact Or.inl (by simp only [Books.post, handlePost, read])
    | ok given =>
      cases checked : checkReceipt lib books.handle.wallet given with
      | error rejection =>
        exact Or.inl (by simp only [Books.post, handlePost, read, handleRedeem, checked])
      | ok receipt =>
        cases found : books.handle.state.open_.lookup receipt.pledgeNonce with
        | none =>
          exact Or.inl (by simp only [Books.post, handlePost, read, handleRedeem, checked, found])
        | some balance =>
          by_cases short : balance < receipt.chargedAtomic
          · refine Or.inl ?_
            simp only [Books.post, handlePost, read, handleRedeem, checked, found, if_pos short]
          · have covered := Fin.not_lt.mp short
            exact Or.inr (Or.inr ⟨receipt, balance, posted_redeem read checked, found, covered,
              post_redeem rfl read checked found covered⟩)

variable {receipt : ReceiptBody} {pledge : PledgeBody} {pledgor : Address} {entries : List Entry}

@[simp] theorem credited_credit :
    Books.credited ⟨handle, books.entries ++ [.credit pledge pledgor]⟩ =
      books.credited ++ [(pledge, pledgor)] := by
  simp [Books.credited, Entry.pledge]

@[simp] theorem redeemed_credit :
    Books.redeemed ⟨handle, books.entries ++ [.credit pledge pledgor]⟩ = books.redeemed := by
  simp [Books.redeemed, Entry.receipt]

@[simp] theorem credited_redemption :
    Books.credited ⟨handle, books.entries ++ [.redemption receipt]⟩ = books.credited := by
  simp [Books.credited, Entry.pledge]

@[simp] theorem redeemed_redemption :
    Books.redeemed ⟨handle, books.entries ++ [.redemption receipt]⟩ =
      books.redeemed ++ [receipt] := by
  simp [Books.redeemed, Entry.receipt]

theorem chargedNonce_concat (nonce : String) (receipts : List ReceiptBody) (last : ReceiptBody) :
    chargedNonce nonce (receipts ++ [last]) = chargedNonce nonce receipts +
      if last.pledgeNonce = nonce then last.chargedAtomic.val else 0 := by
  unfold chargedNonce
  split_ifs with same <;> simp [same]

/-- A pledge with a new nonce opens its whole amount. -/
theorem Balanced.credit (balanced : Balanced books) (pledgor : Address)
    (fresh : ∀ other ∈ books.credited, other.1.nonce ≠ pledge.nonce) :
    Balanced ⟨books.handle.credit pledge, books.entries ++ [.credit pledge pledgor]⟩ := by
  have closed : books.handle.state.open_.lookup pledge.nonce = none := by
    by_contra found
    obtain ⟨other, member, same⟩ := balanced.opened _ (Option.isSome_iff_ne_none.mpr found)
    exact fresh other member same
  have balances (nonce : String) : (books.handle.credit pledge).state.open_.lookup nonce =
      if nonce = pledge.nonce then some pledge.amountAtomic
      else books.handle.state.open_.lookup nonce := by
    have added : saturatingAdd 0 pledge.amountAtomic = pledge.amountAtomic := by
      apply Fin.ext
      simp only [saturatingAdd, Fin.val_zero]
      omega
    rw [EnabledState.credit, addOpen, closed, Option.getD_none, added, Table.lookup_insert_eq]
  have uncharged : chargedNonce pledge.nonce books.redeemed = 0 := by
    rw [chargedNonce, filter_eq_nil_iff.mpr]
    · rfl
    intro receipt member same
    have known := balanced.known receipt member
    rw [of_decide_eq_true same, closed] at known
    cases known
  constructor
  · intro receipt member
    rw [redeemed_credit] at member
    rw [balances]
    split
    · rfl
    · exact balanced.known receipt member
  · intro nonce open_
    rw [balances] at open_
    simp only [credited_credit, mem_append, mem_singleton]
    split at open_
    next same => exact ⟨_, Or.inr rfl, same.symm⟩
    · obtain ⟨other, member, equal⟩ := balanced.opened nonce open_
      exact ⟨other, Or.inl member, equal⟩
  · simp only [credited_credit, redeemed_credit, balances, forall_mem_append, forall_mem_singleton]
    refine ⟨fun other member => ?_, pledge.amountAtomic, if_pos trivial, by rw [uncharged]; rfl⟩
    rw [if_neg (fresh other member)]
    exact balanced.left other member

/-- A redemption moves its charge from the balance of its nonce to the receipts. -/
theorem Balanced.redemption (balanced : Balanced books)
    (found : books.handle.state.open_.lookup receipt.pledgeNonce = some balance)
    (covered : receipt.chargedAtomic ≤ balance) :
    Balanced ⟨books.handle.redeem receipt balance, books.entries ++ [.redemption receipt]⟩ := by
  have balances (nonce : String) : (books.handle.redeem receipt balance).state.open_.lookup nonce =
      if nonce = receipt.pledgeNonce then some (saturatingSub balance receipt.chargedAtomic)
      else books.handle.state.open_.lookup nonce := Table.lookup_insert_eq _ _
  have enough : receipt.chargedAtomic.val ≤ balance.val := covered
  constructor
  · simp only [redeemed_redemption, forall_mem_append, forall_mem_singleton, balances, if_true]
    refine ⟨fun other member => ?_, rfl⟩
    split
    · rfl
    · exact balanced.known other member
  · intro nonce open_
    rw [credited_redemption]
    rw [balances] at open_
    apply balanced.opened
    split at open_
    next same => rw [same, found]; rfl
    · exact open_
  · intro pledge member
    rw [credited_redemption] at member
    obtain ⟨old, stands, equal⟩ := balanced.left pledge member
    rw [redeemed_redemption, balances, chargedNonce_concat]
    by_cases same : pledge.1.nonce = receipt.pledgeNonce
    · rw [same, found] at stands
      cases stands
      refine ⟨_, if_pos same, ?_⟩
      simp only [same, if_true, saturatingSub] at equal ⊢
      omega
    · rw [if_neg same, if_neg (Ne.symm same)]
      exact ⟨old, stands, equal⟩

theorem Balanced.conserves (balanced : Balanced books) (once : Once books.entries) :
    Conserves books := by
  refine ⟨once.nonces.of_map _, once.receipts, fun pledge member => ?_⟩
  obtain ⟨balance, _, equal⟩ := balanced.left pledge member
  calc chargedPledge pledge.2 pledge.1.nonce books.redeemed
      ≤ chargedNonce pledge.1.nonce books.redeemed :=
        ((filter_sublist.filter _).map _).sum_le_sum fun _ _ => Nat.zero_le _
    _ ≤ pledge.1.amountAtomic.val := by omega

theorem Once.of_sublist {fewer : List Entry} (once : Once entries) (sublist : fewer <+ entries) :
    Once fewer where
  nonces := once.nonces.sublist ((sublist.filterMap _).map _)
  receipts := once.receipts.sublist (sublist.filterMap _)

/-- The entries come from the posts so far. -/
structure Follows (lib : Library) (extract : Extractor) (wallet : Address) (past : List Post)
    (books : Books) : Prop where
  own : books.handle.wallet = wallet
  entered : books.entries <+ past.filterMap (posted lib extract wallet)
  balanced : Balanced books

/-- A post that brings back no nonce of a pledge keeps the balances. -/
theorem Follows.post {past : List Post} (follows : Follows lib extract wallet past books)
    (once : Once ((past ++ [req]).filterMap (posted lib extract wallet))) :
    Follows lib extract wallet (past ++ [req]) (books.post lib extract req) := by
  obtain ⟨rfl, entered, balanced⟩ := follows
  rw [filterMap_append] at once
  have enters {entry : Entry} (read : posted lib extract books.handle.wallet req = some entry) :
      books.entries ++ [entry] <+
        (past ++ [req]).filterMap (posted lib extract books.handle.wallet) := by
    rw [filterMap_append, filterMap_cons_some read]
    exact entered.append (Sublist.refl _)
  rcases post_cases with
    same | ⟨pledge, pledgor, read, same⟩ | ⟨receipt, balance, read, found, covered, same⟩ <;>
    rw [same]
  · refine ⟨rfl, entered.trans ?_, balanced⟩
    rw [filterMap_append]
    exact sublist_append_left _ _
  · refine ⟨rfl, enters read, balanced.credit pledgor fun other member equal => ?_⟩
    rw [← filterMap_append] at once
    have nonces := (once.of_sublist (enters read)).nonces
    simp only [filterMap_append, map_append, nodup_append] at nonces
    exact nonces.2.2 _ (mem_map_of_mem member) _ mem_cons_self equal
  · exact ⟨rfl, enters read, balanced.redemption found covered⟩

/-- A relay starts with empty books. -/
def emptyBooks (wallet : Address) : Books := {handle := {wallet := wallet}}

/-- The relay conserves money in every state of a run in which no nonce of a pledge and no receipt
is posted twice. -/
theorem billing_conserves (lib : Library) (extract : Extractor) (wallet : Address)
    (posts : List Post) (once : Once (posts.filterMap (posted lib extract wallet))) :
    Always (Books.post lib extract) Conserves (emptyBooks wallet) posts := by
  have follows : ∀ past, Once (past.filterMap (posted lib extract wallet)) →
      Follows lib extract wallet past (run (Books.post lib extract) (emptyBooks wallet) past) := by
    intro past
    -- The induction takes the last post off, since the books follow the posts so far.
    induction past using reverseRecOn with
    | nil =>
      refine fun _ => ⟨rfl, Sublist.refl _, ?_⟩
      constructor <;> simp [emptyBooks, Books.credited, Books.redeemed]
    | append_singleton past req ih =>
      intro whole
      rw [run_append]
      exact (ih (whole.of_sublist ((sublist_append_left past [req]).filterMap _))).post whole
  intro past short
  have before := once.of_sublist (short.sublist.filterMap (posted lib extract wallet))
  have state := follows past before
  exact state.balanced.conserves (before.of_sublist state.entered)

def alice : Address := ⟨List.replicate 20 1, rfl⟩

def relayWallet : Address := ⟨List.replicate 20 2, rfl⟩

def sampleSignature (v : UInt8) : PersonalSignature :=
  ⟨List.replicate 32 1, List.replicate 32 1, v, rfl, rfl⟩

/-- The text of a pledge of 100 units to the relay. -/
def samplePledge : String :=
  "a3net-token://1/0xaa/0xbb/100/0x0202020202020202020202020202020202020202/c0ffee/2000000000/0x" ++
    "0101010101010101010101010101010101010101010101010101010101010101" ++
    "01010101010101010101010101010101010101010101010101010101010101011b"

def samplePledgeBody : PledgeBody where
  version := 1
  chainId := 1
  contract := "0xaa"
  token := "0xbb"
  amountAtomic := 100
  recipient := relayWallet
  nonce := "c0ffee"
  expiryUnix := 2000000000

/-- The receipt charges the whole pledge. -/
def sampleReceipt : Receipt where
  version := 1
  pledgeNonce := "c0ffee"
  pledgor := alice
  recipient := relayWallet
  chargedAtomic := 100
  issuedUnix := 1
  relay := relayWallet
  signature := sampleSignature 28

/-- The samples print their addresses without capital letters. -/
def sampleKeccak : Bytes → Bytes := fun _ => []

/-- The pledgor has signed one digest and the relay another one. -/
def sampleRecover (pledged received digest : Bytes) (sig : PersonalSignature) :
    Except IdentityError Address :=
  if digest = pledged ∧ sig = sampleSignature 27 then .ok alice
  else if digest = received ∧ sig = sampleSignature 28 then .ok relayWallet
  else .error (.invalidSignature "unknown")

theorem sampleRecover_received (pledged received : Bytes) :
    sampleRecover pledged received received (sampleSignature 28) = .ok relayWallet := by
  have other : sampleSignature 28 ≠ sampleSignature 27 := by decide
  simp [sampleRecover, other]

/-- Only the pledge of the pledgor and the receipt of the relay are signed. -/
def sampleLibrary : Library where
  keccak256 := sampleKeccak
  recoverPersonal :=
    sampleRecover (samplePledgeBody.digest sampleKeccak) (sampleReceipt.digest sampleKeccak)
  hexError _ := "invalid"

/-- The extractor reads the one receipt. -/
def sampleExtract : Extractor := fun body =>
  if body = "receipt" then .ok sampleReceipt else .error ⟨422, "unknown"⟩

theorem samplePledge_parsed : Pledge.fromUrl sampleLibrary (trim samplePledge.toList) =
    .ok ⟨samplePledgeBody, .zero, sampleSignature 27⟩ := by
  decide +kernel

theorem sampleLibrary_recover : sampleLibrary.recoverPersonal =
    sampleRecover (samplePledgeBody.digest sampleLibrary.keccak256)
      (sampleReceipt.digest sampleLibrary.keccak256) := rfl

theorem samplePledge_verified :
    Pledge.verifyWithRecovered sampleLibrary ⟨samplePledgeBody, .zero, sampleSignature 27⟩ 0 =
      .ok alice := by
  have unexpired : ¬ samplePledgeBody.expiryUnix ≤ 0 := by decide
  have recovered : sampleLibrary.recoverPersonal
      (samplePledgeBody.digest sampleLibrary.keccak256) (sampleSignature 27) = .ok alice := by
    rw [sampleLibrary_recover]
    simp [sampleRecover]
  rw [Pledge.verifyWithRecovered, recover, recovered]
  exact if_neg unexpired

theorem sampleReceipt_verified : sampleReceipt.verify sampleLibrary = .ok () := by
  have own : ¬ relayWallet ≠ sampleReceipt.relay := not_not.mpr rfl
  have sig : sampleReceipt.signature = sampleSignature 28 := rfl
  rw [Receipt.verify, recover, sampleLibrary_recover, sig, sampleRecover_received]
  exact if_neg own

theorem checkPledge_ok {pledge : Pledge}
    (parsed : Pledge.fromUrl lib (trim text.toList) = .ok pledge)
    (verified : pledge.verifyWithRecovered lib now = .ok pledgor)
    (chain : pledge.chainId = expectedChainId) (recipient : pledge.recipient = wallet) :
    checkPledge lib wallet now text = .ok (pledge.toPledgeBody, pledgor) := by
  simp only [checkPledge, parsed, verified, chain, recipient, ne_eq, not_true, if_false]

theorem samplePledge_checked :
    checkPledge sampleLibrary relayWallet 0 samplePledge = .ok (samplePledgeBody, alice) :=
  checkPledge_ok samplePledge_parsed samplePledge_verified (by decide) rfl

theorem checkReceipt_ok {receipt : Receipt} (verified : receipt.verify lib = .ok ())
    (relay : receipt.relay = wallet) :
    checkReceipt lib wallet receipt = .ok receipt.toReceiptBody := by
  simp only [checkReceipt, verified, relay, ne_eq, not_true, if_false]

theorem sampleReceipt_checked :
    checkReceipt sampleLibrary relayWallet sampleReceipt = .ok sampleReceipt.toReceiptBody :=
  checkReceipt_ok sampleReceipt_verified rfl

theorem sampleReceipt_read : sampleExtract "receipt" = .ok sampleReceipt := if_pos rfl

theorem billing_conserves_sample :
    Once ([.pledge 0 samplePledge, .redeem "receipt"].filterMap
        (posted sampleLibrary sampleExtract relayWallet)) ∧
      Always (Books.post sampleLibrary sampleExtract) Conserves (emptyBooks relayWallet)
        [.pledge 0 samplePledge, .redeem "receipt"] := by
  have once : Once ([.pledge 0 samplePledge, .redeem "receipt"].filterMap
      (posted sampleLibrary sampleExtract relayWallet)) := by
    rw [filterMap_cons_some (posted_pledge samplePledge_checked),
      filterMap_cons_some (posted_redeem sampleReceipt_read sampleReceipt_checked)]
    exact ⟨nodup_singleton _, nodup_singleton _⟩
  exact ⟨once, billing_conserves _ _ _ _ once⟩

/-- The second post of a pledge is credited again, and then two posts of one receipt are redeemed:
200 units are charged to a pledge of 100 units. -/
theorem billing_replayed :
    ¬ ∀ (lib : Library) (extract : Extractor) (wallet : Address) (posts : List Post),
      Always (Books.post lib extract) Conserves (emptyBooks wallet) posts := by
  intro claim
  have conserved := (claim sampleLibrary sampleExtract relayWallet
    [.pledge 0 samplePledge, .pledge 0 samplePledge, .redeem "receipt", .redeem "receipt"]).final
  have credited {books : Books} (own : books.handle.wallet = relayWallet) :=
    @post_pledge _ sampleExtract _ _ _ _ _ own samplePledge_checked
  have redeemed (balance : U128) {books : Books} (own : books.handle.wallet = relayWallet) :=
    @post_redeem _ _ _ _ balance _ _ _ own sampleReceipt_read sampleReceipt_checked
  rw [run_cons, credited rfl, run_cons, credited rfl, run_cons,
    redeemed 200 rfl (by decide) (by decide), run_cons, redeemed 100 rfl (by decide) (by decide),
    run_nil] at conserved
  have charged := conserved.2.2 (samplePledgeBody, alice) mem_cons_self
  revert charged
  decide

end A3Net.Relay
