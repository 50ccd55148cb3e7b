import VscpAutomation.Lib.Calendar
import VscpAutomation.Lib.Cast
import VscpAutomation.Lib.Elementary
import VscpAutomation.Lib.Runs
import VscpAutomation.Lib.Blocks
import VscpAutomation.Time
import VscpAutomation.Env
import VscpAutomation.Sun
import VscpAutomation.Driver
import VscpAutomation.Rational
import VscpAutomation.Work
import VscpAutomation.Recalculation
import VscpAutomation.Lib.Agenda
import VscpAutomation.NoRepeat
import VscpAutomation.Delivery
import VscpAutomation.Config
import VscpAutomation.Operations
import VscpAutomation.Enable
import VscpAutomation.Place
import VscpAutomation.Lib.Interleave
import VscpAutomation.ReceiveQueue
import VscpAutomation.SendQueue
import VscpAutomation.Lib.FirstFree
import VscpAutomation.Registry
import VscpAutomation.LifeCycle
import VscpAutomation.Calls
import VscpAutomation.Angle
import VscpAutomation.TimeOfDay
import VscpAutomation.HourAngle
import VscpAutomation.DayNumber
import VscpAutomation.PolarNight
import VscpAutomation.Handles
import VscpAutomation.FailedSend
import VscpAutomation.Object
import VscpAutomation.Clients
import VscpAutomation.Commands
import VscpAutomation.Shutdown
import VscpAutomation.Ephemeris
import VscpAutomation.MidLatitudes
import VscpAutomation.Days
import VscpAutomation.Daily
import VscpAutomation.DayLength
import VscpAutomation.Settings
import VscpAutomation.Statics
