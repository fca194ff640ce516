import AppchainStaking.Chain.State
import AppchainStaking.Proofs.Total

/-!
# Token accounts under transfers

A transfer between two accounts takes its amount from one and adds it to the other, and touches no
third account. It never changes what all accounts of a mint hold together, and neither does handing
an account over.
-/

namespace AppchainStaking

namespace TokenAccount

def holding (t : TokenAccount) (amount : Amount) : TokenAccount := { t with amount }

def ownedBy (t : TokenAccount) (owner : AccountId) : TokenAccount := { t with owner }

theorem address_holding (t : TokenAccount) (amount : Amount) :
    (t.holding amount).address = t.address := rfl

theorem mint_holding (t : TokenAccount) (amount : Amount) : (t.holding amount).mint = t.mint := rfl

theorem address_ownedBy (t : TokenAccount) (owner : AccountId) :
    (t.ownedBy owner).address = t.address := rfl

theorem mint_ownedBy (t : TokenAccount) (owner : AccountId) : (t.ownedBy owner).mint = t.mint := rfl

end TokenAccount

namespace TokenBook

variable {book book' : TokenBook} {a b : AccountId} {t source target : TokenAccount}
  {f : TokenAccount → TokenAccount} {authority : AccountId} {amount : Amount}

def supply (book : TokenBook) (mint : AccountId) : Nat :=
  Amount.total ((book.filter (·.mint = mint)).map (·.amount))

theorem address_of_account? (h : book.account? a = some t) : t.address = a := by
  simpa using List.find?_some h

theorem account?_update_self (hf : ∀ t, (f t).address = t.address)
    (h : book.account? a = some t) : (book.update a f).account? a = some (f t) := by
  have hfind := find?_updateFirst (p := (·.address = a)) (f := f)
    (fun x hx => by simpa [hf] using hx) book
  exact hfind.trans (congrArg _ h)

theorem account?_update_of_ne (book : TokenBook) (hf : ∀ t, (f t).address = t.address) (h : a ≠ b) :
    (book.update a f).account? b = book.account? b := by
  refine find?_updateFirst_of_disjoint (fun x hx => ?_) book
  have hne : x.address ≠ b := fun heq => h ((of_decide_eq_true hx).symm.trans heq)
  rw [hf]
  exact ⟨decide_eq_false hne, decide_eq_false hne⟩

theorem update_eq_self (h : book.account? a = some t) (ht : f t = t) : book.update a f = book :=
  updateFirst_eq_self h ht

theorem supply_update (hf : ∀ t, (f t).mint = t.mint) (h : book.account? a = some t)
    (mint : AccountId) :
    (book.update a f).supply mint + (if t.mint = mint then t.amount.toNat else 0) =
      book.supply mint + (if t.mint = mint then (f t).amount.toNat else 0) := by
  have hsum := Amount.total_map_updateFirst (f := f)
    (fun x : TokenAccount => if decide (x.mint = mint) then x.amount else 0) h
  rw [Amount.total_map_ite, Amount.total_map_ite] at hsum
  change (book.update a f).supply mint + _ = book.supply mint + _ at hsum
  rw [hf] at hsum
  by_cases hmint : t.mint = mint
  · simpa [hmint] using hsum
  · simpa [hmint] using hsum

theorem transfer_eq_ok_iff (hne : source.address ≠ target.address) :
    book.transfer source target authority amount = .ok book' ↔
      (source.frozen = false ∧ target.frozen = false) ∧ amount ≤ source.amount ∧
        source.mint = target.mint ∧ source.owner = authority ∧
        target.amount.toNat + amount.toNat < UInt64.size ∧
        (book.update source.address (·.holding (source.amount - amount))).update
          target.address (·.holding (target.amount + amount)) = book' := by
  simp only [transfer, bind_eq_ok_iff, require_eq_ok_iff, if_neg hne, pure_eq_ok_iff, exists_const]
  rfl

structure Moved (book : TokenBook) (source target : TokenAccount) (amount : Amount)
    (book' : TokenBook) : Prop where
  debited : book'.account? source.address = some (source.holding (source.amount - amount))
  credited : book'.account? target.address = some (target.holding (target.amount + amount))
  spent : (source.amount - amount).toNat + amount.toNat = source.amount.toNat
  received : (target.amount + amount).toNat = target.amount.toNat + amount.toNat
  others : ∀ a, a ≠ source.address → a ≠ target.address → book'.account? a = book.account? a
  supply : ∀ mint, book'.supply mint = book.supply mint

theorem moved_of_transfer (hsource : book.account? source.address = some source)
    (htarget : book.account? target.address = some target)
    (hne : source.address ≠ target.address)
    (h : book.transfer source target authority amount = .ok book') :
    Moved book source target amount book' := by
  obtain ⟨-, hcovered, hmint, -, hroom, rfl⟩ := (transfer_eq_ok_iff hne).1 h
  have hspent : (source.amount - amount).toNat + amount.toNat = source.amount.toNat := by
    have hle := UInt64.le_iff_toNat_le.1 hcovered
    rw [UInt64.toNat_sub_of_le _ _ hcovered]
    omega
  have hreceived : (target.amount + amount).toNat = target.amount.toNat + amount.toNat := by
    rw [UInt64.toNat_add]
    exact Nat.mod_eq_of_lt hroom
  have htarget' := (account?_update_of_ne book
    (TokenAccount.address_holding · (source.amount - amount)) hne).trans htarget
  refine ⟨?_, ?_, hspent, hreceived, fun a ha ha' => ?_, fun mint => ?_⟩
  · rw [account?_update_of_ne _ (TokenAccount.address_holding · _) hne.symm]
    exact account?_update_self (TokenAccount.address_holding · _) hsource
  · exact account?_update_self (TokenAccount.address_holding · _) htarget'
  · rw [account?_update_of_ne _ (TokenAccount.address_holding · _) ha'.symm,
      account?_update_of_ne _ (TokenAccount.address_holding · _) ha.symm]
  -- The two accounts are of one mint, so its supply loses and gains the same amount.
  · have hout := supply_update (TokenAccount.mint_holding · (source.amount - amount)) hsource mint
    have hin := supply_update (TokenAccount.mint_holding · (target.amount + amount)) htarget' mint
    rw [hmint] at hout
    by_cases htm : target.mint = mint
    · simp only [if_pos htm, TokenAccount.holding, hreceived] at hout hin ⊢
      omega
    · simp only [if_neg htm] at hout hin
      omega

theorem Moved.exists_account? (h : Moved book source target amount book')
    (htarget : book.account? target.address = some target) (ht : book.account? a = some t) :
    ∃ t', book'.account? a = some t' ∧ (t'.amount < t.amount → a = source.address) := by
  by_cases hsource : a = source.address
  · exact ⟨_, hsource ▸ h.debited, fun _ => hsource⟩
  by_cases htgt : a = target.address
  · obtain rfl : target = t := by
      rw [htgt, htarget] at ht
      exact Option.some.inj ht
    refine ⟨_, htgt ▸ h.credited, fun hlt => absurd (UInt64.lt_iff_toNat_lt.1 hlt) ?_⟩
    have hreceived : (target.holding (target.amount + amount)).amount.toNat =
        target.amount.toNat + amount.toNat := h.received
    omega
  · exact ⟨t, (h.others a hsource htgt).trans ht, fun hlt => absurd hlt (UInt64.lt_irrefl _)⟩

end TokenBook

end AppchainStaking
