import StakeSnapshot.Proofs.World

/-!
# Readings of a chain that does not change

What a chain reader reads past the store is the same from every session whose remembered addresses are
right, and it leaves the store alone.
-/

namespace StakeSnapshot

open Contracts Reads

variable {w : World} {storage : String}

namespace ChainReader

/-! ### Single calls -/

theorem ends_call (c : Call) :
    Ends (Session.Knows w storage) (fun _ => Reads.call w.outside c) (w.chain c) := by
  intro P s hs
  unfold Reads.call World.outside
  dsimp only
  cases w.chain c with
  | ok v => exact ⟨_, rfl, hs.of_eq rfl rfl⟩
  | error fault => exact ⟨_, rfl, hs.of_eq rfl rfl⟩

theorem steady_ask (address : Value) (f : ViewFunction) (argument : Option Argument)
    (block : Value) : Steady (Session.Knows w storage) fun _ =>
      ask w.outside address f argument block :=
  ⟨_, ends_call _⟩

theorem steady_askInt (address : Value) (f : ViewFunction) (argument : Option Argument)
    (block : Value) : Steady (Session.Knows w storage) fun _ =>
      askInt w.outside address f argument block :=
  (steady_ask address f argument block).bind fun v => .lift (v.toInteger 0)

/-- The address that the chain has for a contract is remembered when it has been asked for. -/
theorem ends_registered (r : ChainReader) (contract : String) (block : Int) :
    Ends (Session.Knows w r.storage)
      (fun _ => do
        let address ← ask w.outside (.text r.storage) .address
          (some (.digest (registryKey contract))) (.int block)
        if ← isUnregistered address then throw (Fault.unregistered contract (.int block)).raised
        modify fun s => { s with addresses := Table.put s.addresses (contract, .int block) address }
        return address)
      (w.addressOf r.storage contract (.int block)) := by
  refine (ends_call _).bind fun address haddress =>
    (Ends.lift (isUnregistered address)).bind fun zero hzero => ?_
  cases zero with
  | true => exact fun P s hs => ⟨s, rfl, hs⟩
  | false =>
    have hregistered : w.addressOf r.storage contract (.int block) = .ok address := by
      rw [World.addressOf, haddress]
      change (isUnregistered address >>= _) = _
      rw [hzero]
      rfl
    exact fun P s hs => ⟨_, rfl, hs.resolved hregistered⟩

/-- The address of a contract is the one that the chain has, whether it is remembered or not. -/
theorem ends_resolve (r : ChainReader) (contract : String) (block : Int) :
    Ends (Session.Knows w r.storage) (fun _ => r.resolve w.outside contract (.int block))
      (w.addressOf r.storage contract (.int block)) := by
  intro P s hs
  have hkey : (liftM (Value.int block).keyForm : Reads Value) s = .ok (.int block) s := rfl
  have hget : (get : Reads Session) s = .ok s s := rfl
  dsimp only
  rw [resolve, bind_of_ok hkey, bind_of_ok hget]
  cases hfind : Table.find? s.addresses (contract, .int block) with
  | some address =>
    obtain ⟨n, hn, haddress⟩ := hs.addresses contract _ address hfind
    cases hn
    rw [haddress]
    exact ⟨s, rfl, hs⟩
  | none => exact ends_registered r contract block P s hs

/-! ### Parameters -/

theorem steady_resolve (r : ChainReader) (contract : String) (block : Int) :
    Steady (Session.Knows w r.storage) fun _ => r.resolve w.outside contract (.int block) :=
  ⟨_, ends_resolve r contract block⟩

variable (r : ChainReader) (index block : Int)

theorem steady_price : Steady (Session.Knows w r.storage) fun _ => r.price w.outside (.int block) :=
  (steady_resolve r networkPrices block).bind fun address => steady_askInt address .price none _

theorem steady_minimumFraction :
    Steady (Session.Knows w r.storage) fun _ => r.minimumFraction w.outside (.int block) :=
  (steady_resolve r nodeSettings block).bind fun address =>
    steady_askInt address .minimumStake none _

theorem steady_maximumFraction :
    Steady (Session.Knows w r.storage) fun _ => r.maximumFraction w.outside (.int block) :=
  (steady_resolve r nodeSettings block).bind fun address =>
    steady_askInt address .maximumStake none _

theorem steady_rewardIndex :
    Steady (Session.Knows w r.storage) fun _ => r.rewardIndex w.outside (.int block) :=
  (steady_resolve r rewardsPool block).bind fun address =>
    steady_askInt address .rewardIndex none _

theorem steady_interval :
    Steady (Session.Knows w r.storage) fun _ => r.interval w.outside index (.int block) :=
  (steady_resolve r rewardsPool block).bind fun address =>
    steady_askInt address .intervalTime none _

theorem steady_pendingRewards :
    Steady (Session.Knows w r.storage) fun _ => r.pendingRewards w.outside index (.int block) :=
  (steady_resolve r rewardsPool block).bind fun address =>
    steady_askInt address .pendingRewards none _

theorem steady_shares :
    Steady (Session.Knows w r.storage) fun _ => r.shares w.outside index (.int block) := by
  refine (steady_resolve r rewardsPool block).bind fun pool => ?_
  refine (steady_askInt pool .claimShare (some (.value (.text nodeClaims))) _).bind fun nodes => ?_
  refine (steady_askInt pool .claimShare (some (.value (.text oracleClaims))) _).bind fun oracle => ?_
  exact (steady_askInt pool .claimShare (some (.value (.text protocolClaims))) _).bind fun protocol =>
    .pure (RewardShares.mk nodes oracle protocol)

/-! ### Lists -/

theorem steady_addressesFrom (contract : Value) (entryAt : ViewFunction) (count index : Nat) :
    Steady (Session.Knows w storage) fun _ =>
      addressesFrom w.outside contract entryAt (.int block) count index := by
  induction count generalizing index with
  | zero => exact .pure []
  | succ count ih =>
    refine (steady_ask contract entryAt (some (.index index)) _).bind fun address => ?_
    exact (ih (index + 1)).bind fun rest => .pure (address :: rest)

theorem steady_addresses (contract : Value) (count entryAt : ViewFunction) :
    Steady (Session.Knows w storage) fun _ =>
      addresses w.outside contract count entryAt (.int block) := by
  refine (steady_askInt contract count none _).bind fun n => ?_
  by_cases hhuge : countLimit ≤ n
  · simp only [if_pos hhuge]
    exact (Steady.lift (.error .hugeCount)).bind fun _ => steady_addressesFrom ..
  · simp only [if_neg hhuge]
    exact steady_addressesFrom ..

theorem steady_nodeRow (manager staking address : Value) :
    Steady (Session.Knows w storage) fun _ =>
      nodeRow w.outside manager staking (.int block) address := by
  refine (steady_askInt staking .nodeStake (some (.value address)) _).bind fun stake => ?_
  exact (steady_askInt manager .registrationTime (some (.value address)) _).bind fun registered =>
    .pure (NodeRow.mk address (.int stake) (.int registered))

theorem steady_freshNodes :
    Steady (Session.Knows w r.storage) fun _ => r.freshNodes w.outside (.int block) := by
  refine (steady_resolve r nodeManager block).bind fun manager => ?_
  refine (steady_resolve r nodeStaking block).bind fun staking => ?_
  exact (steady_addresses block manager .nodeCount .nodeAt).bind fun found =>
    .mapM (fun address => steady_nodeRow block manager staking address) found

theorem steady_minipoolRow (manager address : Value) :
    Steady (Session.Knows w storage) fun _ =>
      minipoolRow w.outside manager (.int block) address := by
  refine (steady_ask address .minipoolOwner none _).bind fun owner => ?_
  refine (steady_ask manager .minipoolPubkey (some (.value address)) _).bind fun v => ?_
  refine (Steady.lift v.pubkeyForm).bind fun pubkey => ?_
  refine (steady_ask manager .minipoolExists (some (.value address)) _).bind fun present => ?_
  refine (steady_askInt address .minipoolStatus none _).bind fun code => ?_
  refine (Steady.lift (MinipoolStatus.ofValue (.int code))).bind fun status => ?_
  refine (steady_askInt address .borrowedDeposit none _).bind fun borrowed => ?_
  exact (steady_askInt address .bondedDeposit none _).bind fun bonded =>
    .pure (MinipoolRow.mk address owner pubkey (.bool present.truth) status (.int borrowed)
      (.int bonded))

theorem steady_freshMinipools :
    Steady (Session.Knows w r.storage) fun _ => r.freshMinipools w.outside (.int block) := by
  refine (steady_resolve r minipoolManager block).bind fun manager => ?_
  exact (steady_addresses block manager .minipoolCount .minipoolAt).bind fun found =>
    .mapM (fun address => steady_minipoolRow block manager address) found

end ChainReader

end StakeSnapshot
