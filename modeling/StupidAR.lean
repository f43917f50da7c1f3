import StupidAR.Queue.Closed
import StupidAR.Queue.Fifo
import StupidAR.Queue.Flush
import StupidAR.Queue.History
import StupidAR.Queue.Clients
import StupidAR.Numeric.Bits
import StupidAR.Numeric.BinaryFloat
import StupidAR.Pcm.Sample
import StupidAR.Pcm.Convert
import StupidAR.Pcm.Encoding
import StupidAR.Pcm.Rescaling
import StupidAR.Pcm.Quantising
import StupidAR.Pcm.FloatPaths
import StupidAR.Pcm.Packed
import StupidAR.Pcm.ReverseBytes
import StupidAR.Monitor.Nonblocking
import StupidAR.Queue.Nonblocking
import StupidAR.Monitor.Failures
import StupidAR.Queue.Exceptions
import StupidAR.Monitor.Effort
import StupidAR.Pcm.Chains
import StupidAR.Pcm.IntFloat
import StupidAR.Queue.Fairness
import StupidAR.Queue.Linearizable
import StupidAR.Queue.Programs
import StupidAR.Renderer.Errors
import StupidAR.Server.Unloading
import StupidAR.Server.Registration
