import GrassWorker.Domain.GitSource

/-! Which addresses a repository may be fetched from. An IPv4 address mapped into IPv6 is judged as the
IPv4 address it is; one that is embedded by 6to4 is not looked at. -/
namespace GrassWorker.GitSource
open SourceCredentials

structure PrivateTargetException where
  host : Text
  ip : IpAddr
  port : Nat
deriving DecidableEq

inductive NetworkPolicyError
  | noAddresses
  | nonPublicTarget (ip : IpAddr) (port : Nat)
deriving DecidableEq

def isPublicIpv4 (ip : Ipv4Addr) : Bool :=
  let (a,b,c,_) := ip.octets
  !(a = 0 || a = 10 || (a = 100 && 64 ≤ b && b ≤ 127) || a = 127 || (a = 169 && b = 254) ||
    (a = 172 && 16 ≤ b && b ≤ 31) || (a = 192 && b = 0 && c = 0) || (a = 192 && b = 0 && c = 2) ||
    (a = 192 && b = 88 && c = 99) || (a = 192 && b = 168) || (a = 198 && 18 ≤ b && b ≤ 19) ||
    (a = 198 && b = 51 && c = 100) || (a = 203 && b = 0 && c = 113) || 224 ≤ a)

def ofSegments (high low : Nat) : Ipv4Addr :=
  ⟨Fin.ofNat 256 (high >>> 8),Fin.ofNat 256 high,Fin.ofNat 256 (low >>> 8),Fin.ofNat 256 low⟩

def isPublicIpv6 (ip : Ipv6Addr) : Bool :=
  let segment (n : Nat) : Nat := ip.segments.getD n 0
  if ip.segments.take 5 = [0,0,0,0,0] ∧ segment 5 = 0xffff then isPublicIpv4 (ofSegments (segment 6) (segment 7))
  else
    let globallyAssigned := segment 0 &&& 0xe000 = 0x2000
    let documentation := segment 0 = 0x2001 ∧ segment 1 = 0x0db8
    let benchmarking := segment 0 = 0x2001 ∧ segment 1 = 0x0002
    let orchid := segment 0 = 0x2001 ∧ (segment 1 &&& 0xfff0 = 0x0010 ∨ segment 1 &&& 0xfff0 = 0x0020)
    globallyAssigned ∧ ¬documentation ∧ ¬benchmarking ∧ ¬orchid

def isPublicIp : IpAddr → Bool
  | .v4 ip => isPublicIpv4 ip
  | .v6 ip => isPublicIpv6 ip

def excepted (endpoint : RepositoryEndpoint) (exceptions : List PrivateTargetException) (ip : IpAddr) : Bool :=
  exceptions.any fun exception =>
    eqIgnoreAsciiCase exception.host endpoint.host && exception.ip = ip && exception.port = endpoint.port

def checkTargets (endpoint : RepositoryEndpoint) (exceptions : List PrivateTargetException) :
    List IpAddr → Except NetworkPolicyError Unit
  | [] => .ok ()
  | ip :: rest =>
    if isPublicIp ip = false ∧ excepted endpoint exceptions ip = false then .error (.nonPublicTarget ip endpoint.port)
    else checkTargets endpoint exceptions rest

def validateResolvedTargets (endpoint : RepositoryEndpoint) (addresses : List IpAddr)
    (exceptions : List PrivateTargetException) : Except NetworkPolicyError Unit :=
  if addresses = [] then .error .noAddresses else checkTargets endpoint exceptions addresses

/-! Embedded addresses. -/

def highSegment (ip : Ipv4Addr) : Nat := ip.octets.1 * 256 + ip.octets.2.1

def lowSegment (ip : Ipv4Addr) : Nat := ip.octets.2.2.1 * 256 + ip.octets.2.2.2

/-- `::ffff:a.b.c.d` -/
def Mapped (ip : Ipv6Addr) (inner : Ipv4Addr) : Prop :=
  ip.segments = [0,0,0,0,0,0xffff,highSegment inner,lowSegment inner]

/-- `2002:aabb:ccdd::/48` -/
def SixToFour (ip : Ipv6Addr) (inner : Ipv4Addr) : Prop :=
  ip.segments.take 3 = [0x2002,highSegment inner,lowSegment inner]

def Embeds (ip : Ipv6Addr) (inner : Ipv4Addr) : Prop := Mapped ip inner ∨ SixToFour ip inner

def Hides (ip : Ipv6Addr) : Prop := ∃ inner, SixToFour ip inner ∧ isPublicIpv4 inner = false

def PublicThroughout (ip : IpAddr) : Prop :=
  isPublicIp ip = true ∧ ∀ outer inner, ip = .v6 outer → Embeds outer inner → isPublicIpv4 inner = true

section Embedded
variable {ip : Ipv6Addr} {inner : Ipv4Addr}

theorem ofSegments_segments (inner : Ipv4Addr) : ofSegments (highSegment inner) (lowSegment inner) = inner := by
  obtain ⟨a,b,c,d⟩ := inner
  have byte (high low : Fin 256) : Fin.ofNat 256 ((high.val * 256 + low.val) >>> 8) = high ∧
      Fin.ofNat 256 (high.val * 256 + low.val) = low := by
    constructor
    · apply Fin.ext
      rw [Fin.val_ofNat,Nat.shiftRight_eq_div_pow]
      omega
    · apply Fin.ext
      rw [Fin.val_ofNat]
      omega
  simp only [ofSegments,highSegment,lowSegment,byte]

theorem isPublicIpv6_mapped (mapped : Mapped ip inner) : isPublicIpv6 ip = isPublicIpv4 inner := by
  unfold Mapped at mapped
  unfold isPublicIpv6
  simp only [mapped,List.getD_cons_succ,List.getD_cons_zero]
  rw [if_pos ⟨rfl,trivial⟩,ofSegments_segments]

theorem isPublicIpv6_sixToFour (embedded : SixToFour ip inner) : isPublicIpv6 ip = true := by
  obtain ⟨rest,split⟩ : ∃ rest, ip.segments = 0x2002 :: highSegment inner :: lowSegment inner :: rest := by
    refine ⟨ip.segments.drop 3,?_⟩
    conv_lhs => rw [← List.take_append_drop 3 ip.segments,embedded]
    rfl
  unfold isPublicIpv6
  simp [split]

theorem rejects_embedded_iff : (∀ inner, Embeds ip inner → isPublicIpv4 inner = false → isPublicIpv6 ip = false) ↔ ¬Hides ip := by
  constructor
  · rintro rejects ⟨inner,embedded,hidden⟩
    have rejected := rejects inner (.inr embedded) hidden
    rw [isPublicIpv6_sixToFour embedded] at rejected
    cases rejected
  · rintro open' inner (mapped | embedded) hidden
    · rw [isPublicIpv6_mapped mapped]
      exact hidden
    · exact absurd ⟨inner,embedded,hidden⟩ open'

theorem publicThroughout_iff (ip : IpAddr) :
    PublicThroughout ip ↔ isPublicIp ip = true ∧ ∀ outer, ip = .v6 outer → ¬Hides outer := by
  constructor
  · rintro ⟨visible,inside⟩
    refine ⟨visible,?_⟩
    rintro outer rfl ⟨inner,embedded,hidden⟩
    have shown := inside outer inner rfl (.inr embedded)
    rw [hidden] at shown
    cases shown
  · rintro ⟨visible,open'⟩
    refine ⟨visible,?_⟩
    rintro outer inner rfl (mapped | embedded)
    · rw [← isPublicIpv6_mapped mapped]
      exact visible
    · by_contra hidden
      exact open' outer rfl ⟨inner,embedded,by simpa using hidden⟩

end Embedded

section Targets
variable {endpoint : RepositoryEndpoint} {addresses : List IpAddr} {exceptions : List PrivateTargetException}

theorem checkTargets_eq_ok : checkTargets endpoint exceptions addresses = .ok () ↔
    ∀ ip ∈ addresses, isPublicIp ip = true ∨ excepted endpoint exceptions ip = true := by
  induction addresses with
  | nil => simp [checkTargets]
  | cons ip rest ih =>
    unfold checkTargets
    rw [List.forall_mem_cons]
    split
    · rename_i refused
      simp [refused]
    · rename_i allowed
      have here : isPublicIp ip = true ∨ excepted endpoint exceptions ip = true := by
        by_contra neither
        obtain ⟨hidden,plain⟩ := not_or.mp neither
        exact allowed ⟨by simpa using hidden,by simpa using plain⟩
      rw [ih]
      exact ⟨fun later => ⟨here,later⟩,And.right⟩

theorem validateResolvedTargets_eq_ok : validateResolvedTargets endpoint addresses exceptions = .ok () ↔
    addresses ≠ [] ∧ ∀ ip ∈ addresses, isPublicIp ip = true ∨ excepted endpoint exceptions ip = true := by
  unfold validateResolvedTargets
  split
  · rename_i empty
    simp [empty]
  · rename_i some'
    rw [checkTargets_eq_ok]
    exact ⟨fun each => ⟨some',each⟩,And.right⟩

def Admits (endpoint : RepositoryEndpoint) (addresses : List IpAddr) (exceptions : List PrivateTargetException) : Prop :=
  validateResolvedTargets endpoint addresses exceptions = .ok () →
    ∀ ip ∈ addresses, PublicThroughout ip ∨ excepted endpoint exceptions ip = true

theorem admits_iff : Admits endpoint addresses exceptions ↔
    (∃ ip ∈ addresses, isPublicIp ip = false ∧ excepted endpoint exceptions ip = false) ∨
      ∀ ip ∈ addresses, excepted endpoint exceptions ip = true ∨ ∀ outer, ip = .v6 outer → ¬Hides outer := by
  constructor
  · intro admits
    by_cases each : ∀ ip ∈ addresses, isPublicIp ip = true ∨ excepted endpoint exceptions ip = true
    · right
      intro ip member
      have nonempty : addresses ≠ [] := List.ne_nil_of_mem member
      rcases admits (validateResolvedTargets_eq_ok.mpr ⟨nonempty,each⟩) ip member with visible | plain
      · exact .inr ((publicThroughout_iff ip).mp visible).2
      · exact .inl plain
    · left
      push Not at each
      obtain ⟨ip,member,hidden,plain⟩ := each
      exact ⟨ip,member,by simpa using hidden,by simpa using plain⟩
  · rintro condition accepted ip member
    have each := (validateResolvedTargets_eq_ok.mp accepted).2
    rcases condition with ⟨other,inside,hidden,plain⟩ | open'
    · rcases each other inside with visible | allowed
      · rw [hidden] at visible
        cases visible
      · rw [plain] at allowed
        cases allowed
    · rcases open' ip member with plain | inner
      · exact .inr plain
      · rcases each ip member with visible | plain
        · exact .inl ((publicThroughout_iff ip).mpr ⟨visible,inner⟩)
        · exact .inr plain

/-- No private address gets in through IPv6, if none is embedded by 6to4 where no other address stops the list. -/
theorem private_targets_rejected_iff (ip : Ipv6Addr) (endpoint : RepositoryEndpoint) (addresses : List IpAddr)
    (exceptions : List PrivateTargetException) :
    ((∀ inner, Embeds ip inner → isPublicIpv4 inner = false → isPublicIpv6 ip = false) ∧
        Admits endpoint addresses exceptions) ↔
      ¬Hides ip ∧ ((∃ ip ∈ addresses, isPublicIp ip = false ∧ excepted endpoint exceptions ip = false) ∨
        ∀ ip ∈ addresses, excepted endpoint exceptions ip = true ∨ ∀ outer, ip = .v6 outer → ¬Hides outer) := by
  rw [rejects_embedded_iff,admits_iff]

end Targets

/-- `2002:a00:1::`, which leads to 10.0.0.1. -/
def tunnel : Ipv6Addr := ⟨[0x2002,0x0a00,1,0,0,0,0,0],rfl,by decide⟩

theorem tunnel_is_public : isPublicIpv4 ⟨10,0,0,1⟩ = false ∧ Embeds tunnel ⟨10,0,0,1⟩ ∧ isPublicIpv6 tunnel = true ∧
    ¬Admits ⟨.https,"example.com".toList,443,"/repo.git".toList,none,false⟩ [.v6 tunnel] [] := by
  have hides : Hides tunnel := ⟨⟨10,0,0,1⟩,by rfl,by decide⟩
  refine ⟨by decide,.inr (by rfl),by decide,fun admits => ?_⟩
  rcases admits_iff.mp admits with ⟨ip,member,hidden,_⟩ | open'
  · obtain rfl := List.mem_singleton.mp member
    revert hidden
    decide
  · rcases open' _ (List.mem_singleton_self _) with plain | inner
    · cases plain
    · exact inner _ rfl hides

end GrassWorker.GitSource
