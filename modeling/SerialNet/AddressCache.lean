import SerialNet.SerialProtocol

namespace SerialNet

/-- The mapping between Ethernet and local addresses. -/
structure AddressCache where
  m_table : List (LocalAddress × MacAddr)
  m_myMac : MacAddr
  m_myLocalAddr : LocalAddress
deriving DecidableEq

namespace AddressCache

def broadcastMac : MacAddr := ⟨List.replicate 6 0xff, rfl⟩
def illegalMac : MacAddr := ⟨List.replicate 6 0, rfl⟩

/-- The constructor leaves `m_myMac` as it finds it. -/
def initial (m_myMac : MacAddr) : AddressCache := ⟨[], m_myMac, LocalAddress.null_addr⟩

def getLocalAddress (c : AddressCache) (addr : MacAddr) : LocalAddress :=
  if addr = broadcastMac then LocalAddress.broadcast
  else if c.m_myLocalAddr ≠ LocalAddress.null_addr ∧ c.m_myMac = addr then c.m_myLocalAddr
  else
    match c.m_table.find? (fun el => addr = el.2) with
    | none => LocalAddress.null_addr
    | some el => el.1

def setAddress (c : AddressCache) (local_ : LocalAddress) (mac : MacAddr) : AddressCache :=
  if local_ = LocalAddress.broadcast then c
  else
    match c.m_table.findIdx? (fun el => local_ = el.1) with
    | some i => { c with m_table := c.m_table.set i (local_, mac) }
    | none => { c with m_table := c.m_table ++ [(local_, mac)] }

def updateMyMAC (c : AddressCache) (local_ : LocalAddress) (mac : MacAddr) : AddressCache :=
  if c.m_myLocalAddr ≠ LocalAddress.null_addr then c
  else { c with m_myMac := mac, m_myLocalAddr := local_ }

def getMac (c : AddressCache) (local_ : LocalAddress) : Bool × MacAddr :=
  if local_ = LocalAddress.broadcast then (true, broadcastMac)
  else
    match c.m_table.find? (fun el => local_ = el.1) with
    | some el => (true, el.2)
    | none => (false, illegalMac)

end AddressCache

end SerialNet
