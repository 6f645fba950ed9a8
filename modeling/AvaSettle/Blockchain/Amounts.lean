import AvaSettle.Data.Decimal
import AvaSettle.Payins.Calm
import AvaSettle.Payouts.Walk
import AvaSettle.Settlements.Runs

/-!
# Amounts

The amount of a request is a decimal numeral with up to eighteen digits after the point, whatever the
decimals of the token are, and `parseUnits` rounds the digits beyond these. So the atomic amount that is
stored is the value of the numeral just when the digits beyond the decimals of the token are zeros, and the
rounded cap is the cap just when it is not rounded up.
-/

namespace AvaSettle.Blockchain
open Async
open Data (Decimal)

/-- The pattern of an amount in a request: no leading zeros, and after a point one to eighteen digits. -/
def IsAmount (s : String) : Prop :=
  ∃ int frac : List Char, (∀ c ∈ int ++ frac, c.isDigit = true) ∧ (int = ['0'] ∨ ∃ c l, int = c :: l ∧ c ≠ '0') ∧
    frac.length ≤ 18 ∧ s.toList = int ++ if frac = [] then [] else '.' :: frac

/-- `parseUnits` as documented: exact where the decimals suffice and else rounded half up, and positive
    only for an unsigned numeral. -/
structure HalfUp (parseUnits : String → Nat → Except String Int) : Prop where
  numeral : ∀ s v d, Decimal.ofString? s = some v → parseUnits s d = .ok (v.units d)
  positive : ∀ s d n, parseUnits s d = .ok n → 0 < n → ∃ v, Decimal.ofString? s = some v

/-- The atomic amount is the value of the amount in atomic units. -/
def ExactAmount (amount : String) (decimals atomic : Nat) : Prop :=
  ∃ v, Decimal.ofString? amount = some v ∧ v.Exact decimals atomic

/-- The amount is at most the cap. -/
def BelowCap (cap : Option String) (amount : String) : Prop :=
  ∀ c, truthy cap = some c →
    ∃ v u, Decimal.ofString? amount = some v ∧ Decimal.ofString? c = some u ∧ v.Le u

/-- The digits of the amount beyond the decimals are zeros. -/
def Representable (amount : String) (decimals : Nat) : Prop :=
  ∃ v, Decimal.ofString? amount = some v ∧ v.Fits decimals

/-- The cap is not rounded up to just the amount. -/
def CapKept (cap : Option String) (amount : String) (decimals : Nat) : Prop :=
  ∀ c, truthy cap = some c → ∀ v u, Decimal.ofString? amount = some v → Decimal.ofString? c = some u →
    u.RoundsUp decimals → v.units decimals ≠ u.units decimals

/-! ## Reading an amount -/

variable {d : Deployment} {amount : String} {decimals atomic : Nat} {cap : Option String} {v : Decimal}

/-- The digits before the point are cut off. -/
lemma takeWhile_digits (l rest : List Char) (digits : ∀ c ∈ l, c.isDigit = true)
    (point : rest = [] ∨ rest.head? = some '.') :
    (l ++ rest).takeWhile (· ≠ '.') = l ∧ (l ++ rest).dropWhile (· ≠ '.') = rest := by
  induction l with
  | nil =>
    rcases point with rfl | point
    · simp
    · cases rest with
      | nil => simp
      | cons c rest =>
        cases point
        simp
  | cons c l ih =>
    obtain ⟨here, later⟩ := List.forall_mem_cons.1 digits
    have other : c ≠ '.' := by
      rintro rfl
      cases here
    obtain ⟨take, drop⟩ := ih later
    simp only [List.cons_append, List.takeWhile_cons, List.dropWhile_cons, other, ne_eq, not_false_eq_true,
      decide_true, if_true]
    exact ⟨congrArg _ take, drop⟩

/-- An amount of a request is a numeral. -/
lemma numeral_of_isAmount (is : IsAmount amount) : ∃ v, Decimal.ofString? amount = some v := by
  obtain ⟨int, frac, digits, _, _, eq⟩ := is
  have split := takeWhile_digits int (if frac = [] then [] else '.' :: frac)
    (fun c mem => digits c (List.mem_append_left _ mem)) (by split <;> simp)
  have tail : (if frac = [] then [] else '.' :: frac).tail = frac := by
    split
    · next nil => exact nil.symm
    · rfl
  rw [Decimal.ofString?, eq]
  simp only [split.1, split.2, tail]
  exact ⟨⟨int, frac, digits⟩, dif_pos digits⟩

/-- What `parseUnits` gives where an amount is taken. -/
lemma parsed_of_parse (parsed : parseAtomicAmount d amount decimals = .ok atomic) :
    ∃ n, d.parseUnits amount decimals = .ok n ∧ 0 < n ∧ n.toNat = atomic := by
  rw [parseAtomicAmount] at parsed
  cases units : d.parseUnits amount decimals with
  | error e =>
    rw [units] at parsed
    cases parsed
  | ok n =>
    rw [units] at parsed
    simp only [bind, Except.bind] at parsed
    split at parsed
    · cases parsed
    · next positive =>
      cases parsed
      exact ⟨n, rfl, Int.not_le.1 positive, rfl⟩

/-- An amount that is taken is its rounding. -/
lemma units_of_parse (units : HalfUp d.parseUnits) (is : Decimal.ofString? amount = some v)
    (parsed : parseAtomicAmount d amount decimals = .ok atomic) : atomic = v.units decimals := by
  obtain ⟨n, eq, _, rfl⟩ := parsed_of_parse parsed
  rw [units.numeral _ _ _ is] at eq
  cases eq
  rfl

/-- A string that is taken as an amount is a numeral. -/
lemma numeral_of_parse (units : HalfUp d.parseUnits)
    (parsed : parseAtomicAmount d amount decimals = .ok atomic) : ∃ v, Decimal.ofString? amount = some v := by
  obtain ⟨n, eq, positive, _⟩ := parsed_of_parse parsed
  exact units.positive _ _ _ eq positive

/-! ## Exact amounts -/

/-- An amount that is taken is exact just when it is representable. -/
theorem exact_iff (units : HalfUp d.parseUnits) (is : Decimal.ofString? amount = some v)
    (parsed : parseAtomicAmount d amount decimals = .ok atomic) :
    ExactAmount amount decimals atomic ↔ Representable amount decimals := by
  have eq := units_of_parse units is parsed
  constructor
  · rintro ⟨u, is', exact⟩
    cases is.symm.trans is'
    exact ⟨v, is, Decimal.units_exact_iff.1 (eq ▸ exact)⟩
  · rintro ⟨u, is', fits⟩
    cases is.symm.trans is'
    exact ⟨v, is, eq ▸ Decimal.units_exact_iff.2 fits⟩

/-- A representable amount that passes the check of the cap is at most the cap just when the cap is not
    rounded up to it. -/
theorem below_iff (units : HalfUp d.parseUnits) (is : Decimal.ofString? amount = some v)
    (parsed : parseAtomicAmount d amount decimals = .ok atomic) (representable : Representable amount decimals)
    (below : ∀ c, truthy cap = some c → ∃ most, parseAtomicAmount d c decimals = .ok most ∧ atomic ≤ most) :
    BelowCap cap amount ↔ CapKept cap amount decimals := by
  obtain ⟨v', is', fits⟩ := representable
  cases is.symm.trans is'
  have eq := units_of_parse units is parsed
  have exact := Decimal.units_exact_iff.2 fits
  constructor
  · intro kept c given v' u is' isCap
    cases is.symm.trans is'
    obtain ⟨most, parsedCap, le⟩ := below c given
    obtain ⟨v', u', is', isCap', order⟩ := kept c given
    cases is.symm.trans is'
    cases isCap.symm.trans isCap'
    have eqCap := units_of_parse units isCap parsedCap
    exact (Decimal.le_iff_of_exact exact (eq ▸ eqCap ▸ le)).1 order
  · intro kept c given
    obtain ⟨most, parsedCap, le⟩ := below c given
    obtain ⟨u, isCap⟩ := numeral_of_parse units parsedCap
    have eqCap := units_of_parse units isCap parsedCap
    exact ⟨v, u, is, isCap, (Decimal.le_iff_of_exact exact (eq ▸ eqCap ▸ le)).2 (kept c given v u is isCap)⟩

/-! ## What the calls store -/

section
variable {asset : SettlementAsset}

/-- A payout that a request stores has its amount, parsed and below the cap. -/
def PricedPayout (d : Deployment) (asset : SettlementAsset) (amount : String) : Call → Prop
  | .payoutInsert r => r.amount = amount ∧
      parseAtomicAmount d amount (d.getAssetConfig asset).decimals = .ok r.amountAtomic ∧
      ∀ c, truthy (d.getAssetConfig asset).maxPayoutAmount = some c →
        ∃ most, parseAtomicAmount d c (d.getAssetConfig asset).decimals = .ok most ∧ r.amountAtomic ≤ most
  | _ => True

/-- A pay-in that a request stores has its amount, parsed. -/
def PricedPayIn (d : Deployment) (asset : SettlementAsset) (amount : String) : Call → Prop
  | .payInInsert r => r.expectedAmount = amount ∧
      parseAtomicAmount d amount (d.getAssetConfig asset).decimals = .ok r.expectedAmountAtomic
  | _ => True

/-- A settlement that a request stores has its amount, parsed. -/
def PricedSettlement (d : Deployment) (asset : SettlementAsset) (amount : String) : Call → Prop
  | .settlementInsert r => r.amount = amount ∧
      parseAtomicAmount d amount (d.getAssetConfig asset).decimals = .ok r.amountAtomic
  | _ => True

/-- An amount that is parsed is the atomic amount of its text. -/
lemma parse_of_parseAmount (parsed : parseAmount d amount decimals = .ok atomic) :
    parseAtomicAmount d amount decimals = .ok atomic := by
  rw [parseAmount] at parsed
  split at parsed
  · next eq => rw [eq, Except.ok.inj parsed]
  · cases parsed

/-- An amount that passes the cap is not above it. -/
lemma below_of_requireBelowCap {dto : Payouts.CreatePayoutDto} {config : AssetRuntimeConfig}
    (passes : Payouts.requireBelowCap d dto config atomic = .ok ()) :
    ∀ c, truthy config.maxPayoutAmount = some c →
      ∃ most, parseAtomicAmount d c config.decimals = .ok most ∧ atomic ≤ most := by
  intro c given
  rw [Payouts.requireBelowCap, given] at passes
  dsimp only at passes
  split at passes
  · cases passes
  · next most parsed =>
    split at passes
    · cases passes
    · next le => exact ⟨most, parsed, Nat.le_of_not_lt le⟩

/-- A neutral operation writes no amount. -/
lemma priced_of_neutral (c : Call) (neutral : Payouts.Neutral c) : PricedPayout d asset amount c := by
  cases c <;> trivial

/-- An authorization writes no other amount. -/
lemma priced_authorizePayout {id : Uuid} {dto : Payouts.AuthorizePayoutDto} {context : RequestContext} :
    (Payouts.authorizePayout d id dto context).Uses (PricedPayout d asset amount) fun _ => True := by
  have quiet {α : Type} {p : Method α} (uses : p.Uses Payouts.Neutral fun _ => True) :
      p.Uses (PricedPayout d asset amount) fun _ => True := Prog.uses_mono priced_of_neutral uses
  refine Prog.uses_bind (quiet Payouts.uses_requirePayout) fun payout => ?_
  split
  · exact quiet Payouts.uses_toResponse
  · refine Prog.uses_bind (quiet (Payouts.uses_request rfl)) fun now => ?_
    refine Prog.uses_bind (Prog.uses_await trivial) fun claimed => ?_
    cases claimed with
    | none =>
      refine Prog.uses_bind (quiet Payouts.uses_requirePayout) fun current => ?_
      split
      · exact quiet Payouts.uses_toResponse
      · exact Prog.uses_throw trivial
    | some authorized =>
      refine Prog.uses_bind (quiet Payouts.uses_recordAudit) fun _ => ?_
      refine Prog.uses_bind (Prog.uses_tryCatch ?_ fun e _ => ?_) fun updated => ?_
      · exact Payouts.uses_executePayout priced_of_neutral (fun _ => trivial) (fun _ _ => trivial)
          (fun _ => trivial) rfl
      · exact Payouts.uses_handlePayoutError priced_of_neutral fun _ => trivial
      · exact Prog.uses_bind (Prog.uses_orThrow trivial) fun _ => quiet Payouts.uses_toResponse

/-- A payout is stored with the atomic amount of its text. -/
lemma priced_createPayout {dto : Payouts.CreatePayoutDto} {context : RequestContext} :
    (Payouts.createPayout d dto context).Uses (PricedPayout d dto.asset dto.amount) fun _ => True := by
  have quiet {α : Type} {p : Method α} (uses : p.Uses Payouts.Neutral fun _ => True) :
      p.Uses (PricedPayout d dto.asset dto.amount) fun _ => True := Prog.uses_mono priced_of_neutral uses
  refine Settlements.uses_ofExcept_bind fun amountAtomic parsed => ?_
  refine Settlements.uses_ofExcept_bind fun _ passes => ?_
  refine Prog.uses_bind (quiet (Payouts.uses_request rfl)) fun now => ?_
  refine Prog.uses_bind (quiet (Payouts.uses_request rfl)) fun id => ?_
  refine Prog.uses_bind (Prog.uses_bind (Prog.uses_await ?_) fun inserted => ?_) fun result => ?_
  · exact ⟨rfl, parse_of_parseAmount parsed, below_of_requireBelowCap passes⟩
  · cases inserted with
    | some r => exact Prog.uses_pure _
    | none =>
      exact quiet (Prog.uses_bind (Payouts.uses_request rfl) fun _ =>
        Prog.uses_bind (Prog.uses_orThrow trivial) fun _ => Prog.uses_pure _)
  · obtain ⟨record, existed⟩ := result
    cases existed with
    | true => exact quiet (Prog.uses_bind Payouts.uses_recordAudit fun _ => Payouts.uses_toResponse)
    | false =>
      refine Prog.uses_bind (quiet Payouts.uses_recordAudit) fun _ => ?_
      split
      · exact priced_authorizePayout
      · exact quiet Payouts.uses_toResponse

/-- A pay-in is stored with the atomic amount of its text. -/
lemma priced_createPayIn {dto : Payins.CreatePayInDto} {context : RequestContext} :
    (Payins.createPayIn d dto context).Uses (PricedPayIn d dto.asset dto.amount) fun _ => True := by
  have clerical (c : Call) (clerical : Payins.isClerical c = true) (_ : c ≠ .claimNextPayInIndex) :
      PricedPayIn d dto.asset dto.amount c := by
    cases c <;> trivial
  have created : (Payins.createNewPayIn d dto context).Uses (PricedPayIn d dto.asset dto.amount) fun _ => True := by
    refine Settlements.uses_ofExcept_bind fun atomic parsed => ?_
    have taken := parse_of_parseAmount parsed
    dsimp only
    split
    case h_1 =>
      refine Prog.uses_bind (Prog.uses_ofExcept fun _ _ => trivial) fun router => ?_
      refine Prog.uses_bind (Payins.uses_clerical clerical rfl nofun) fun start => ?_
      refine Prog.uses_bind (Payins.uses_clerical clerical rfl nofun) fun now => ?_
      refine Prog.uses_bind (Payins.uses_clerical clerical rfl nofun) fun id => ?_
      exact Payins.uses_insertPayIn clerical ⟨rfl, taken⟩
    case h_2 =>
      refine Prog.uses_bind (Payins.uses_clerical clerical rfl nofun) fun start => ?_
      refine Prog.uses_bind (Payins.uses_clerical clerical rfl nofun) fun now => ?_
      refine Prog.uses_bind (Prog.uses_await trivial) fun index => ?_
      refine Prog.uses_bind (Prog.uses_ofExcept fun _ _ => trivial) fun address => ?_
      refine Prog.uses_bind (Payins.uses_clerical clerical rfl nofun) fun id => ?_
      exact Payins.uses_insertPayIn clerical ⟨rfl, taken⟩
  unfold Payins.createPayIn
  split
  case h_1 => exact created
  case h_2 key =>
    refine Prog.uses_bind (Prog.uses_bind (Payins.uses_clerical clerical rfl nofun) fun recordId => ?_)
      fun prior => ?_
    · cases recordId with
      | none => exact Prog.uses_pure _
      | some id => exact Payins.uses_clerical clerical rfl nofun
    · cases prior with
      | none => exact created
      | some prior => exact Payins.uses_payInResponse clerical

/-- A settlement is stored with the atomic amount of its text. -/
lemma priced_record {dto : Settlements.CreateSettlementDto} {context : RequestContext} :
    (Settlements.record d dto context).Uses (PricedSettlement d dto.asset dto.amount) fun _ => True :=
  Settlements.uses_record_of (fun c other => by cases c <;> trivial) fun parsed _ =>
    ⟨rfl, parse_of_parseAmount parsed⟩

end

/-! ## Runs -/

section
variable {W α : Type} {M : Machine Api W} {rely : Hist Api → W → W → Prop} {p : Method α} {w w' : W}
  {r : Except Exception α} {h : Hist Api} {P : Call → Prop}

/-- Every operation of a run is one that the program uses. -/
lemma of_mem_run (run : M.Runs rely p w [] r w' h) (uses : p.Uses P fun _ => True) : ∀ e ∈ h, P e.op := by
  have keep (o : Call) (w : W) (h : Hist Api) (holds : P o) (all : ∀ e ∈ h, P e.op) :
      M.Leads rely o (fun _ _ h => ∀ e ∈ h, P e.op) w h := by
    intro w₁ o' w₂ _ _ _ e mem
    rcases List.mem_append.1 mem with mem | mem
    · exact all e mem
    · rw [List.mem_singleton.1 mem]
      exact holds
  exact Machine.wp_sound run (Machine.wp_uses keep uses fun e mem => absurd mem List.not_mem_nil)

end

/-- Where the amount of a request matches the pattern, what a call stores is exact, and a payout below the
    cap, just when the digits of the amount beyond the decimals are zeros and the cap is not rounded up to
    the amount. -/
theorem stored_amounts_exact_iff (d : Deployment) (units : HalfUp d.parseUnits) {W : Type} (M : Machine Api W)
    (rely : Hist Api → W → W → Prop) (context : RequestContext) (w w' : W) (h : Hist Api) :
    (∀ (dto : Payouts.CreatePayoutDto) r, IsAmount dto.amount →
      M.Runs rely (Payouts.createPayout d dto context) w [] r w' h → ∀ e ∈ h, ∀ row, e.op = .payoutInsert row →
        row.amount = dto.amount ∧
        ((ExactAmount dto.amount (d.getAssetConfig dto.asset).decimals row.amountAtomic ∧
            BelowCap (d.getAssetConfig dto.asset).maxPayoutAmount dto.amount) ↔
          (Representable dto.amount (d.getAssetConfig dto.asset).decimals ∧
            CapKept (d.getAssetConfig dto.asset).maxPayoutAmount dto.amount
              (d.getAssetConfig dto.asset).decimals))) ∧
    (∀ (dto : Payins.CreatePayInDto) r, IsAmount dto.amount →
      M.Runs rely (Payins.createPayIn d dto context) w [] r w' h → ∀ e ∈ h, ∀ row, e.op = .payInInsert row →
        row.expectedAmount = dto.amount ∧
        (ExactAmount dto.amount (d.getAssetConfig dto.asset).decimals row.expectedAmountAtomic ↔
          Representable dto.amount (d.getAssetConfig dto.asset).decimals)) ∧
    (∀ (dto : Settlements.CreateSettlementDto) r, IsAmount dto.amount →
      M.Runs rely (Settlements.record d dto context) w [] r w' h → ∀ e ∈ h, ∀ row, e.op = .settlementInsert row →
        row.amount = dto.amount ∧
        (ExactAmount dto.amount (d.getAssetConfig dto.asset).decimals row.amountAtomic ↔
          Representable dto.amount (d.getAssetConfig dto.asset).decimals)) := by
  refine ⟨fun dto r is run e mem row eq => ?_, fun dto r is run e mem row eq => ?_,
    fun dto r is run e mem row eq => ?_⟩
  · have priced := of_mem_run run priced_createPayout e mem
    rw [eq] at priced
    obtain ⟨v, numeral⟩ := numeral_of_isAmount is
    refine ⟨priced.1, ?_⟩
    rw [exact_iff units numeral priced.2.1]
    exact and_congr_right fun representable => below_iff units numeral priced.2.1 representable priced.2.2
  · have priced := of_mem_run run priced_createPayIn e mem
    rw [eq] at priced
    obtain ⟨v, numeral⟩ := numeral_of_isAmount is
    exact ⟨priced.1, exact_iff units numeral priced.2⟩
  · have priced := of_mem_run run priced_record e mem
    rw [eq] at priced
    obtain ⟨v, numeral⟩ := numeral_of_isAmount is
    exact ⟨priced.1, exact_iff units numeral priced.2⟩

/-! ## Concrete requests -/

/-- `parseUnits` on numerals. -/
def parseNumeral (amount : String) (decimals : Nat) : Except String Int :=
  match Decimal.ofString? amount with
  | some v => .ok (v.units decimals)
  | none => .error s!"Number {amount} is not a valid decimal number."

/-- The sample `parseUnits` rounds half up. -/
lemma halfUp_parseNumeral : HalfUp parseNumeral where
  numeral s v d is := by rw [parseNumeral, is]
  positive s d n eq _ := by
    rw [parseNumeral] at eq
    split at eq
    · next v is => exact ⟨v, is⟩
    · cases eq

/-- A local deployment with the rounding, whose token has six decimals. -/
def roundingDeployment (cap : Option String) : Deployment :=
  { Deployment.sample with
    parseUnits := parseNumeral
    getAssetConfig := fun _ => ⟨some sampleToken, 6, cap⟩ }

/-- A payout that is only stored. -/
def storedDto (amount : String) : Payouts.CreatePayoutDto :=
  ⟨"inv-1", amount, .usdc, sampleAddress, none, none, none, none, false⟩

/-- A request on its own, all of whose operations are answered. -/
def stores (cap : Option String) (amount : String) :
    Option (Except Exception PayoutResponse × World × Hist Api) :=
  services.play (fun _ _ _ => true)
    (Payouts.createPayout (roundingDeployment cap) (storedDto amount) .sample) (.replicate 5 .done) .sample []

/-- The event stores the amount as `atomic` units. -/
def insertsAmount (atomic : Nat) (e : Event Api) : Bool :=
  match e.op with
  | .payoutInsert r => r.amountAtomic = atomic
  | _ => false

/-- A request that is played stores the amount. -/
lemma exists_stored (cap : Option String) (amount : String) (atomic : Nat)
    (res : ((stores cap amount).any fun q => q.2.2.any (insertsAmount atomic)) = true) :
    ∃ r w' h, services.Runs (fun _ _ _ => True)
      (Payouts.createPayout (roundingDeployment cap) (storedDto amount) .sample) .sample [] r w' h ∧
      ∃ e ∈ h, ∃ row, e.op = .payoutInsert row ∧ row.amountAtomic = atomic := by
  obtain ⟨⟨r, w', h⟩, played, stored⟩ := (Option.any_eq_true _ _).1 res
  obtain ⟨e, mem, inserts⟩ := List.any_eq_true.1 stored
  refine ⟨r, w', h, Machine.runs_of_play (fun _ _ _ _ => trivial) (fun _ _ => trivial) played, e, mem, ?_⟩
  unfold insertsAmount at inserts
  split at inserts
  · next row eq => exact ⟨row, eq, of_decide_eq_true inserts⟩
  · cases inserts

/-- An amount with two decimals is stored exactly. -/
theorem exact_of_two_decimals : ∃ r w' h, services.Runs (fun _ _ _ => True)
    (Payouts.createPayout (roundingDeployment none) (storedDto "25.50") .sample) .sample [] r w' h ∧
    ∃ e ∈ h, ∃ row, e.op = .payoutInsert row ∧ row.amountAtomic = 25500000 ∧
      ((ExactAmount "25.50" 6 row.amountAtomic ∧ BelowCap none "25.50") ↔
        (Representable "25.50" 6 ∧ CapKept none "25.50" 6)) := by
  obtain ⟨r, w', h, run, e, mem, row, eq, atomic⟩ :=
    exists_stored none "25.50" 25500000 (by decide +kernel)
  have is : IsAmount "25.50" :=
    ⟨['2', '5'], ['5', '0'], by decide, .inr ⟨'2', ['5'], rfl, by decide⟩, by decide, rfl⟩
  exact ⟨r, w', h, run, e, mem, row, eq, atomic,
    ((stored_amounts_exact_iff (roundingDeployment none) halfUp_parseNumeral services (fun _ _ _ => True)
      .sample .sample w' h).1 (storedDto "25.50") r is run e mem row eq).2⟩

/-- A seventh decimal is rounded to the sixth, and stored so. -/
theorem rounded_amount_stored : IsAmount "1.0000005" ∧ ∃ r w' h, services.Runs (fun _ _ _ => True)
    (Payouts.createPayout (roundingDeployment none) (storedDto "1.0000005") .sample) .sample [] r w' h ∧
    ∃ e ∈ h, ∃ row, e.op = .payoutInsert row ∧ ¬ExactAmount "1.0000005" 6 row.amountAtomic := by
  obtain ⟨r, w', h, run, e, mem, row, eq, atomic⟩ :=
    exists_stored none "1.0000005" 1000001 (by decide +kernel)
  refine ⟨⟨['1'], ['0', '0', '0', '0', '0', '0', '5'], by decide, .inr ⟨'1', [], rfl, by decide⟩, by decide, rfl⟩,
    r, w', h, run, e, mem, row, eq, ?_⟩
  rintro ⟨v, is, exact⟩
  have inexact : ((Decimal.ofString? "1.0000005").any fun v => decide (v.Exact 6 1000001)) = false := by
    decide +kernel
  rw [is, Option.any_some, decide_eq_false_iff_not] at inexact
  rw [atomic] at exact
  exact inexact exact

end AvaSettle.Blockchain
