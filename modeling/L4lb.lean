import L4lb.Types
import L4lb.Murmur
import L4lb.Ring
import L4lb.Registry
import L4lb.Session
import L4lb.RingBuffer.Spec
import L4lb.RingBuffer.Spsc
import L4lb.RingBuffer.Mpmc
import L4lb.Proxy
import L4lb.Protocol
import L4lb.Checksum
import L4lb.Text
import L4lb.Address
import L4lb.Config
import L4lb.ConfigFile
import L4lb.Balancer
import L4lb.Startup
import L4lb.Flows
